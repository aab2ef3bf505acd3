import CardCatalog.Proofs.Writing
import Mathlib.Data.List.Basic

/-!
# Portraits

The portrait of a record is what it shows once ids are left out: the rows that it refers to
are given by their natural keys, and its links by what they hold.

Results: a record that is written from a submission has the portrait that the submission
describes (`shown_written`), and all other records are read back as before
(`loadRecord_written_of_ne`).
-/

namespace CardCatalog

open Calendar (Date)
open Text (Wide)

/-- A record as it is read back, without the ids of rows and links. -/
structure Portrait where
  id : String
  details : Details String
  refs : PerDirect (NaturalKey String)
  attached : PerAttached (List (NaturalKey String × Bool))
  links : List LinkRow
  created : Date
  updated : Date
  creator : String
  modifiedBy : String
  deriving DecidableEq

/-- What an aggregate shows without ids. -/
def Aggregate.portrait (a : Aggregate) : Portrait where
  id := a.id
  details := a.details
  refs := .ofFn fun d => (a.refs.get d).key
  attached := .ofFn fun k => (a.attached.get k).map fun x => (x.row.key, x.manual)
  links := a.links.map Prod.snd
  created := a.created
  updated := a.updated
  creator := a.creator
  modifiedBy := a.modifiedBy

/-- The portrait of a record that is written with given rows, where `unknown` has the keys of
the unknown rows. -/
def SubmissionRows.portrait
    (rows : SubmissionRows) (id : String) (unknown : DirectKind → NaturalKey String) :
    Portrait where
  id := id
  details := rows.record.details
  refs := .ofFn fun d => ((rows.direct.get d).map Candidate.key).getD (unknown d)
  attached := .ofFn fun a =>
    (firstBy (fun x => x.row.key) (rows.attached.get a)).map fun x => (x.row.key, x.manual)
  links := rows.links
  created := rows.record.created
  updated := rows.record.updated
  creator := rows.record.creator
  modifiedBy := rows.record.modifiedBy

/-- Of rows whose keys are held, the first reference to each id is the one of the first row of each
key. -/
theorem uniqueRefs_namedRefs
    {t : Table Int (NaturalKey String)} {rows : List (AttachedCandidate String)}
    (held : ∀ x ∈ rows, x.row.key ∈ t.values) :
    uniqueRefs (namedRefs t rows) = namedRefs t (firstBy (fun x => x.row.key) rows) := by
  refine freshBy_map _ _ _ _ [] [] (fun _ _ => by simp) ?_
  intro x hx y hy
  exact Table.idFor_inj (held x hx) (held y hy)

namespace Store

/-- The portrait of a record, if there is one. -/
def shown (s : Store) (id : String) : Except Fault (Option Portrait) :=
  (s.loadRecord id).map (Option.map Aggregate.portrait)

/-- The key of the unknown row of a direct kind. -/
def unknownKeyOf (s : Store) (d : DirectKind) : NaturalKey String :=
  ((s.keys (.direct d)).get? unknownId).getD (unknownKey d)

section Reading

variable {s t : Store} {id : String} {row : RecordRow}

/-- A record whose references are found is assembled with the rows found. -/
theorem assemble_eq_ok
    {found : PerDirect Lookup}
    (h : ∀ d, s.lookup? (.direct d) (row.refs.get d) = some (found.get d)) :
    s.assemble id row = .ok
      { id := id
        details := row.details
        refs := found
        attached := .ofFn fun a => s.attachedRows id a
        links := s.linksOf id
        created := row.created
        updated := row.updated
        creator := row.creator
        modifiedBy := row.modifiedBy } := by
  have hresolve : ∀ d, s.resolve id row d = .ok (found.get d) := by
    intro d
    simp only [resolve, h d]
  unfold assemble
  rw [hresolve, hresolve, hresolve, hresolve]
  rfl

/-- What is assembled has the rows that the record points at. -/
theorem refs_of_assemble
    {a : Aggregate}
    (h : s.assemble id row = .ok a) (d : DirectKind) :
    s.lookup? (.direct d) (row.refs.get d) = some (a.refs.get d) := by
  have hresolves := (s.isOk_assemble_iff id row).1 ⟨a, h⟩
  have hfound : ∀ d, ∃ key, (s.keys (.direct d)).get? (row.refs.get d) = some key :=
    fun d => (s.keys (.direct d)).contains_iff.1 (hresolves d (DirectKind.mem_all d))
  choose keys hkeys using hfound
  have hlookup : ∀ d, s.lookup? (.direct d) (row.refs.get d)
      = some (PerDirect.get (.ofFn fun d => ⟨row.refs.get d, keys d⟩) d) := by
    intro d
    rw [PerDirect.get_ofFn, lookup?, hkeys d]
    rfl
  rw [assemble_eq_ok hlookup] at h
  cases h
  exact hlookup d

/-- What is assembled has the contents of the record, and all that belongs to it. -/
theorem eq_of_assemble
    {a : Aggregate}
    (h : s.assemble id row = .ok a) :
    a =
      { id := id
        details := row.details
        refs := a.refs
        attached := .ofFn fun k => s.attachedRows id k
        links := s.linksOf id
        created := row.created
        updated := row.updated
        creator := row.creator
        modifiedBy := row.modifiedBy } :=
  Except.ok.inj (h.symm.trans (assemble_eq_ok (refs_of_assemble h)))

/-- A record that is there and whose references have keys shows these keys. -/
theorem shown_of_some
    (keys : PerDirect (NaturalKey String))
    (hrow : s.records.get? id = some row)
    (hkeys : ∀ d, (s.keys (.direct d)).get? (row.refs.get d) = some (keys.get d)) :
    s.shown id = .ok (some
      { id := id
        details := row.details
        refs := keys
        attached := .ofFn fun a => (s.attachedRows id a).map fun x => (x.row.key, x.manual)
        links := (s.linksOf id).map Prod.snd
        created := row.created
        updated := row.updated
        creator := row.creator
        modifiedBy := row.modifiedBy }) := by
  have hfound : ∀ d, s.lookup? (.direct d) (row.refs.get d)
      = some (PerDirect.get (.ofFn fun d => ⟨row.refs.get d, keys.get d⟩) d) := by
    intro d
    rw [PerDirect.get_ofFn, lookup?, hkeys d]
    rfl
  unfold shown loadRecord
  rw [hrow]
  simp only [assemble_eq_ok hfound]
  have hrefs : PerDirect.ofFn keys.get = keys := PerDirect.ext_get fun d => by simp
  simp [Except.map, Aggregate.portrait, hrefs]

/-- The attached rows of a record are found from its own attachments alone. -/
theorem attachedRows_eq (s : Store) (id : String) (a : AttachedKind) :
    s.attachedRows id a
      = (((s.attachments.get a).rows.map Prod.snd).filter fun x => x.record = id).filterMap
          fun x => (s.lookup? (.attached a) x.target).map fun row => ⟨row, x.manual⟩ := by
  unfold attachedRows
  induction (s.attachments.get a).rows with
  | nil => rfl
  | cons e es ih =>
      by_cases he : e.2.record = id
      · simp [List.filterMap_cons, he, ih]
      · simp [he, ih]

/-- The rows that are attached to a record are those of its attachments whose row is there. -/
theorem map_attachedRows
    (s : Store) (id : String) (k : AttachedKind) :
    (s.attachedRows id k).map (fun x => (x.row.id, x.manual))
      = ((s.attachments.get k).rows.filter fun e =>
          e.2.record = id ∧ (s.keys (.attached k)).contains e.2.target = true).map
            fun e => (e.2.target, e.2.manual) := by
  unfold attachedRows
  induction (s.attachments.get k).rows with
  | nil => rfl
  | cons e es ih =>
      rw [List.filterMap_cons]
      by_cases hrecord : e.2.record = id
      · cases htarget : (s.keys (.attached k)).get? e.2.target with
        | none => simpa [hrecord, lookup?, Table.contains, htarget] using ih
        | some key => simpa [hrecord, lookup?, Table.contains, htarget] using ih
      · simpa [hrecord] using ih

/-- A record is read back as before if its own rows, and the keys of all rows that there
were, are as before. -/
theorem loadRecord_congr
    (h : s.Sound)
    (keys : ∀ k i key, (s.keys k).get? i = some key → (t.keys k).get? i = some key)
    (records : t.records.get? id = s.records.get? id)
    (attachments : ∀ a,
      ((t.attachments.get a).rows.map Prod.snd).filter (fun x => x.record = id)
        = ((s.attachments.get a).rows.map Prod.snd).filter fun x => x.record = id)
    (links : t.linksOf id = s.linksOf id) :
    t.loadRecord id = s.loadRecord id := by
  have hlookup : ∀ k i, (s.keys k).contains i = true → t.lookup? k i = s.lookup? k i := by
    intro k i hi
    obtain ⟨key, hkey⟩ := (s.keys k).contains_iff.1 hi
    simp only [lookup?, hkey, keys k i key hkey]
  have hattached : ∀ a, t.attachedRows id a = s.attachedRows id a := by
    intro a
    rw [attachedRows_eq, attachedRows_eq, attachments a]
    refine List.filterMap_congr fun x hx => ?_
    obtain ⟨e, he, rfl⟩ := List.mem_map.1 (List.mem_filter.1 hx).1
    rw [hlookup _ _ (h.target a e he)]
  unfold loadRecord
  rw [records]
  cases hrow : s.records.get? id with
  | none => rfl
  | some row =>
      have hresolve : ∀ d, t.resolve id row d = s.resolve id row d := by
        intro d
        simp only [resolve, hlookup _ _ (h.refs id row hrow d)]
      simp only [assemble, hresolve, hattached, links]

end Reading

section Written

variable {s : Store} {id : String} {rows : SubmissionRows}

@[simp] theorem keys_written (k : Kind) :
    (s.written id rows).keys k = (s.keys k).enrolAll (rows.named k) :=
  s.keys_enrolNamed rows.named k

/-- The keys that a record names are held once it is written. -/
theorem mem_values_written
    {k : Kind} {key : NaturalKey String}
    (h : key ∈ rows.named k) :
    key ∈ ((s.written id rows).keys k).values := by
  rw [keys_written]
  exact Table.mem_values_enrolAll.2 (Or.inr h)

/-- The attachments after a record is written are those before, and its own. -/
theorem attachments_written (a : AttachedKind) :
    ((s.written id rows).attachments.get a).rows.map Prod.snd
      = (s.attachments.get a).rows.map Prod.snd ++
          (uniqueRefs (namedRefs ((s.written id rows).keys (.attached a))
            (rows.attached.get a))).map fun r => ⟨id, r.id, r.manual⟩ := by
  obtain ⟨new, hnew, hvalues⟩ := (s.attachments.get a).rows_pushAll
    ((uniqueRefs (namedRefs ((s.enrolNamed rows.named).keys (.attached a))
      (rows.attached.get a))).map fun r => ⟨id, r.id, r.manual⟩)
  have hrows :
      ((s.written id rows).attachments.get a).rows = (s.attachments.get a).rows ++ new := by
    rw [← hnew]
    simp only [written, created, PerAttached.get_ofFn, attachments_enrolNamed]
  rw [hrows, List.map_append, hvalues, keys_written, keys_enrolNamed]

/-- The links after a record is written are those before, and its own. -/
theorem links_written (s : Store) (id : String) (rows : SubmissionRows) :
    (s.written id rows).links = s.links.pushAll rows.links :=
  rfl

/-- Of its keys, a record keeps the first row of each. -/
theorem uniqueRefs_written (a : AttachedKind) :
    uniqueRefs (namedRefs ((s.written id rows).keys (.attached a)) (rows.attached.get a))
      = namedRefs ((s.written id rows).keys (.attached a))
          (firstBy (fun x => x.row.key) (rows.attached.get a)) :=
  uniqueRefs_namedRefs fun x hx => mem_values_written (List.mem_map.2 ⟨x, hx, rfl⟩)

/-- The other records are read back as before. -/
theorem loadRecord_written_of_ne
    {id' : String}
    (h : s.Sound)
    (owner : ∀ l ∈ rows.links, l.record = id)
    (hne : id' ≠ id) :
    (s.written id rows).loadRecord id' = s.loadRecord id' := by
  refine loadRecord_congr h ?_ ?_ ?_ ?_
  · intro k i key hkey
    rw [keys_written]
    exact Table.get?_enrolAll_of_some _ hkey
  · show (s.records.put id _).get? id' = _
    rw [Table.get?_put, if_neg hne]
  · intro a
    rw [attachments_written, List.filter_append]
    simp [hne.symm]
  · have hothers : ∀ l ∈ rows.links, decide (l.record = id') = false := by
      intro l hl
      rw [owner l hl]
      exact decide_eq_false hne.symm
    rw [linksOf, links_written]
    exact s.links.filter_rows_pushAll hothers

/-- The attached rows of a record that is written are those that it names, the first of each
key. -/
theorem attachedRows_written
    (h : s.Sound)
    (fresh : s.records.contains id = false)
    (a : AttachedKind) :
    ((s.written id rows).attachedRows id a).map (fun x => (x.row.key, x.manual))
      = (firstBy (fun x => x.row.key) (rows.attached.get a)).map
          fun x => (x.row.key, x.manual) := by
  have hold : ((s.attachments.get a).rows.map Prod.snd).filter (fun x => x.record = id) = [] := by
    refine List.filter_eq_nil_iff.2 fun x hx hid => ?_
    obtain ⟨e, he, rfl⟩ := List.mem_map.1 hx
    exact h.attachment_ne fresh a e he (of_decide_eq_true hid)
  rw [attachedRows_eq, attachments_written, List.filter_append, hold, List.nil_append,
    uniqueRefs_written]
  have hlookup : ∀ x ∈ firstBy (fun x => x.row.key) (rows.attached.get a),
      (s.written id rows).lookup? (.attached a)
          (((s.written id rows).keys (.attached a)).idFor x.row.key)
        = some ⟨((s.written id rows).keys (.attached a)).idFor x.row.key, x.row.key⟩ := by
    intro x hx
    have hx := (freshBy_sublist _ _ []).subset hx
    refine lookup?_eq_some_iff.2 ⟨Table.get?_idFor ?_, rfl⟩
    exact mem_values_written (List.mem_map.2 ⟨x, hx, rfl⟩)
  generalize firstBy (fun x => x.row.key) (rows.attached.get a) = kept at hlookup
  induction kept with
  | nil => rfl
  | cons x kept ih =>
      have hrest := ih fun y hy => hlookup y (List.mem_cons_of_mem x hy)
      have hx := hlookup x (by simp)
      simp only [namedRefs, List.map_cons, List.filter_cons, decide_true, if_true] at hrest ⊢
      rw [List.filterMap_cons_some (by rw [hx]; rfl), List.map_cons, hrest]

theorem linksOf_written
    (h : s.Sound)
    (fresh : s.records.contains id = false)
    (owner : ∀ l ∈ rows.links, l.record = id) :
    ((s.written id rows).linksOf id).map Prod.snd = rows.links := by
  have hold : ∀ e ∈ s.links.rows, decide (e.2.record = id) = false :=
    fun e he => decide_eq_false (h.link_ne fresh e he)
  rw [linksOf, links_written]
  exact Table.map_filter_rows_pushAll hold fun l hl => decide_eq_true (owner l hl)

/-- A record that is written has its references by the ids of the rows that it names. -/
theorem get?_records_written (s : Store) (id : String) (rows : SubmissionRows) :
    (s.written id rows).records.get? id
      = some { rows.record with
          refs := .ofFn fun d =>
            namedId ((s.enrolNamed rows.named).keys (.direct d)) (rows.direct.get d) } := by
  show (s.records.put id _).get? id = _
  rw [Table.get?_put, if_pos rfl]

/-- A new record that is written shows what it is written with. -/
theorem shown_written
    (h : s.Sound)
    (fresh : s.records.contains id = false)
    (owner : ∀ l ∈ rows.links, l.record = id) :
    (s.written id rows).shown id = .ok (some (rows.portrait id s.unknownKeyOf)) := by
  have hrow := s.get?_records_written id rows
  have hkeys : ∀ d,
      ((s.written id rows).keys (.direct d)).get?
          (namedId ((s.enrolNamed rows.named).keys (.direct d)) (rows.direct.get d))
        = some (((rows.direct.get d).map Candidate.key).getD (s.unknownKeyOf d)) := by
    intro d
    cases hc : rows.direct.get d with
    | none =>
        obtain ⟨key, hkey⟩ := (s.keys (.direct d)).contains_iff.1 (h.unknown d)
        have hunknown : s.unknownKeyOf d = key := by
          rw [unknownKeyOf, hkey, Option.getD_some]
        rw [keys_written, hunknown]
        exact Table.get?_enrolAll_of_some _ hkey
    | some c =>
        refine Table.get?_idFor (mem_values_written ?_)
        show c.key ∈ (rows.direct.get d).toList.map Candidate.key
        rw [hc]
        exact List.mem_singleton.2 rfl
  rw [shown_of_some
    (.ofFn fun d => ((rows.direct.get d).map Candidate.key).getD (s.unknownKeyOf d)) hrow]
  · simp only [attachedRows_written h fresh, linksOf_written h fresh owner]
    rfl
  · intro d
    rw [PerDirect.get_ofFn, PerDirect.get_ofFn]
    exact hkeys d

end Written

end Store
end CardCatalog
