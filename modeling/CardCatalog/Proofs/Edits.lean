import CardCatalog.Proofs.Branches
import CardCatalog.Proofs.TableRows
import Mathlib.Logic.Relation

/-!
# Edits

Whatever an operation does to a store, it does by a chain of edits.  An edit writes one row,
or takes one away together with what the tables do of themselves: references to a lost row
fall back to the unknown row, and attachments and links go with their owner.  The
constructors of `Edit` say under which conditions a row is ever written.

Results: the store that an operation leaves is reached by edits (`edits_of_run`), so that
what every edit keeps holds after every run (`after_invariant`).
-/

namespace CardCatalog

open Calendar (Date)
open Text (Wide)

/-- A record row when a reference row is gone. -/
def RecordRow.without
    (row : RecordRow) (k : Kind) (id : Int) : RecordRow :=
  match k with
  | .direct d =>
      if row.refs.get d = id then { row with refs := row.refs.set d unknownId } else row
  | .attached _ => row

/-- The references of a record when a reference row is gone. -/
theorem RecordRow.get_refs_without
    (row : RecordRow) (k : Kind) (id : Int) (d : DirectKind) :
    (row.without k id).refs.get d
      = if k = .direct d ∧ row.refs.get d = id then unknownId else row.refs.get d := by
  cases k with
  | direct d' =>
      by_cases hid : row.refs.get d' = id
      · by_cases hd : d = d'
        · subst hd
          simp [RecordRow.without, hid]
        · have hd' : ¬ d' = d := fun e => hd e.symm
          simp [RecordRow.without, hid, hd, hd']
      · by_cases hd : d' = d
        · subst hd
          simp [RecordRow.without, hid]
        · simp [RecordRow.without, hid, hd]
  | attached a =>
      simp [RecordRow.without]

namespace Store

/-- The store without a reference row, whether anything can fall back or not. -/
def without
    (s : Store) (k : Kind) (id : Int) : Store :=
  match k with
  | .direct _ =>
      { s.setKeys k ((s.keys k).erase id) with
        records := s.records.map fun _ row => row.without k id }
  | .attached a =>
      (s.setKeys k ((s.keys k).erase id)).setAttachments a
        ((s.attachments.get a).filter fun _ x => x.target ≠ id)

section Frames

variable (s : Store) (k : Kind) (a : AttachedKind)

@[simp] theorem records_setKeys (t : Table Int (NaturalKey String)) :
    (s.setKeys k t).records = s.records := rfl

@[simp] theorem attachments_setKeys (t : Table Int (NaturalKey String)) :
    (s.setKeys k t).attachments = s.attachments := rfl

@[simp] theorem links_setKeys (t : Table Int (NaturalKey String)) :
    (s.setKeys k t).links = s.links := rfl

@[simp] theorem keys_setAttachments (t : Table Int Attachment) :
    (s.setAttachments a t).keys k = s.keys k := rfl

@[simp] theorem records_setAttachments (t : Table Int Attachment) :
    (s.setAttachments a t).records = s.records := rfl

@[simp] theorem links_setAttachments (t : Table Int Attachment) :
    (s.setAttachments a t).links = s.links := rfl

@[simp] theorem attachments_setAttachments
    (t : Table Int Attachment) (a' : AttachedKind) :
    (s.setAttachments a t).attachments.get a'
      = if a' = a then t else s.attachments.get a' := by
  simp [setAttachments]

@[simp] theorem keys_records (r : Table String RecordRow) :
    ({ s with records := r } : Store).keys k = s.keys k := rfl

@[simp] theorem keys_links (l : Table Int LinkRow) :
    ({ s with links := l } : Store).keys k = s.keys k := rfl

@[simp] theorem keys_detach (id : String) :
    (s.detach id a).keys k = s.keys k := rfl

@[simp] theorem records_detach (id : String) :
    (s.detach id a).records = s.records := rfl

@[simp] theorem links_detach (id : String) :
    (s.detach id a).links = s.links := rfl

/-- The attachments that a record does not lose are those of other kinds and records. -/
theorem mem_attachments_detach (id : String) (a' : AttachedKind) {e : Int × Attachment} :
    e ∈ ((s.detach id a).attachments.get a').rows ↔
      e ∈ (s.attachments.get a').rows ∧ ¬ (a' = a ∧ e.2.record = id) := by
  unfold detach
  rw [attachments_setAttachments]
  by_cases h : a' = a
  · subst h
    simp [Table.filter]
  · simp [h]

end Frames

section Without

variable (s : Store) (k : Kind) (id : Int)

@[simp] theorem keys_without (k' : Kind) :
    (s.without k id).keys k' = if k' = k then (s.keys k).erase id else s.keys k' := by
  have h := s.keys_setKeys k k' ((s.keys k).erase id)
  cases k with
  | direct d => exact h
  | attached a => exact h

@[simp] theorem links_without :
    (s.without k id).links = s.links := by
  cases k <;> rfl

@[simp] theorem get?_records_without (r : String) :
    (s.without k id).records.get? r = (s.records.get? r).map (·.without k id) := by
  cases k with
  | direct d =>
      simp [without]
  | attached a =>
      cases h : s.records.get? r <;> simp [without, RecordRow.without, h]

@[simp] theorem contains_records_without (r : String) :
    (s.without k id).records.contains r = s.records.contains r := by
  simp [Table.contains]

/-- The attachments that stay are those to other rows. -/
theorem mem_attachments_without (a : AttachedKind) {e : Int × Attachment} :
    e ∈ ((s.without k id).attachments.get a).rows ↔
      e ∈ (s.attachments.get a).rows ∧ ¬ (k = .attached a ∧ e.2.target = id) := by
  cases k with
  | direct d =>
      simp [without]
  | attached a' =>
      by_cases h : a = a'
      · subst h
        simp [without, Table.filter]
      · have h' : ¬ a' = a := fun e => h e.symm
        simp [without, h, h']

/-- A row is dropped exactly if whatever points at it can fall back. -/
theorem dropLookup_eq_ok_iff {s' : Store} :
    s.dropLookup k id = .ok s' ↔
      (∀ d, k = .direct d →
        s.uses k id = 0 ∨ ((s.keys k).erase id).contains unknownId = true)
        ∧ s' = s.without k id := by
  cases k with
  | direct d =>
      show (require _ _ >>= fun _ => Except.ok (s.without (.direct d) id)) = .ok s' ↔ _
      rw [bind_eq_ok_iff]
      constructor
      · rintro ⟨u, hu, h⟩
        exact ⟨fun _ _ => require_eq_ok_iff.1 hu, (Except.ok.inj h).symm⟩
      · rintro ⟨hu, rfl⟩
        exact ⟨(), require_eq_ok_iff.2 (hu d rfl), rfl⟩
  | attached a =>
      show Except.ok (s.without (.attached a) id) = .ok s' ↔ _
      constructor
      · intro h
        exact ⟨fun _ hd => (by cases hd), (Except.ok.inj h).symm⟩
      · rintro ⟨_, rfl⟩
        rfl

end Without

section Holders

variable {s : Store} {k : Kind} {key : NaturalKey String} {excluded? : Option Int}

theorem lookup?_eq_some_iff {id : Int} {row : Lookup} :
    s.lookup? k id = some row ↔ (s.keys k).get? id = some row.key ∧ row.id = id := by
  unfold lookup?
  rw [Option.map_eq_some_iff]
  constructor
  · rintro ⟨key, hkey, rfl⟩
    exact ⟨hkey, rfl⟩
  · rintro ⟨hkey, rfl⟩
    exact ⟨row.key, hkey, rfl⟩

/-- Nobody holds a key if every row with it is the excluded one. -/
theorem holder?_eq_none_iff :
    s.holder? k key excluded? = none ↔
      ∀ e ∈ (s.keys k).rows, e.2 = key → some e.1 = excluded? := by
  simp [holder?, lookupRows]

/-- The holder of a key is a row with it, and not the excluded one. -/
theorem get?_of_holder?_eq_some {row : Lookup}
    (h : s.holder? k key excluded? = some row) :
    (s.keys k).get? row.id = some key ∧ row.key = key ∧ some row.id ≠ excluded? := by
  have hp := List.find?_some h
  have hmem := List.mem_of_find?_eq_some h
  obtain ⟨e, he, rfl⟩ := List.mem_map.mp hmem
  simp only [Bool.and_eq_true, decide_eq_true_eq] at hp
  obtain ⟨rfl, hne⟩ := hp
  exact ⟨(Table.mem_rows_iff _).1 he, rfl, hne⟩

/-- If a row may not be taken away, every other one may. -/
theorem isProtected_eq_false_of_ne
    {id j : Int}
    (safe : isProtected k id = true)
    (hne : j ≠ id) :
    isProtected k j = false := by
  cases k with
  | direct d =>
      have hid : id = unknownId := of_decide_eq_true safe
      exact decide_eq_false (hid ▸ hne)
  | attached a => rfl

end Holders

end Store

/-- One change of a store. -/
inductive Edit : Store → Store → Prop
  /-- A row is added whose key nobody holds. -/
  | add
      {s : Store} (k : Kind) (key : NaturalKey String)
      (free : ∀ e ∈ (s.keys k).rows, e.2 ≠ key) :
      Edit s (s.setKeys k ((s.keys k).push key))
  /-- A row takes a key that nobody else holds. -/
  | rename
      {s : Store} (k : Kind) (id : Int) (key : NaturalKey String)
      (found : (s.keys k).contains id = true)
      (free : ∀ e ∈ (s.keys k).rows, e.2 = key → e.1 = id) :
      Edit s (s.setKeys k ((s.keys k).put id key))
  /-- A row is taken away that is not the unknown one. -/
  | remove
      {s : Store} (k : Kind) (id : Int)
      (safe : Store.isProtected k id = false) :
      Edit s (s.without k id)
  /-- The unknown row takes the key of another row, which is taken away. -/
  | absorb
      {s : Store} (d : DirectKind) (id : Int) (key : NaturalKey String)
      (unknown : (s.keys (.direct d)).contains unknownId = true)
      (found : (s.keys (.direct d)).get? id = some key)
      (other : id ≠ unknownId) :
      Edit s
        ((s.without (.direct d) id).setKeys (.direct d)
          (((s.keys (.direct d)).erase id).put unknownId key))
  /-- A record is written; its references exist, or the record had them before. -/
  | write
      {s : Store} (id : String) (row : RecordRow)
      (resolves : ∀ d,
        (∃ old, s.records.get? id = some old ∧ old.refs.get d = row.refs.get d) ∨
          (s.keys (.direct d)).contains (row.refs.get d) = true) :
      Edit s { s with records := s.records.put id row }
  /-- A row is attached to a record that does not have it. -/
  | attach
      {s : Store} (a : AttachedKind) (x : Attachment)
      (owner : s.records.contains x.record = true)
      (target : (s.keys (.attached a)).contains x.target = true)
      (free : ∀ e ∈ (s.attachments.get a).rows,
        ¬ (e.2.record = x.record ∧ e.2.target = x.target)) :
      Edit s (s.setAttachments a ((s.attachments.get a).push x))
  /-- A record loses its attachments of a kind. -/
  | detach
      {s : Store} (a : AttachedKind) (id : String) :
      Edit s (s.detach id a)
  /-- A link is added to a record. -/
  | link
      {s : Store} (l : LinkRow)
      (owner : s.records.contains l.record = true) :
      Edit s { s with links := s.links.push l }
  /-- A record is taken away with all that it owns. -/
  | delete
      {s : Store} (id : String) :
      Edit s
        { ((s.detach id .genre).detach id .idol) with
          records := s.records.erase id
          links := s.links.filter fun _ l => l.record ≠ id }

/-- A chain of changes. -/
abbrev Edits : Store → Store → Prop := Relation.ReflTransGen Edit

/-- What every edit keeps is kept by a chain of them. -/
theorem Edits.invariant
    {P : Store → Prop}
    (step : ∀ s s', Edit s s' → P s → P s')
    {s s' : Store}
    (h : Edits s s')
    (hs : P s) :
    P s' := by
  induction h with
  | refl => exact hs
  | tail _ hstep ih => exact step _ _ hstep ih

/-- A draft is stored with the references that it has. -/
theorem refs_of_toStorable_draft
    {today : Date} {d : RecordDraft} {row : RecordRow}
    (h : d.toStorable today = .ok row) :
    row.refs = d.refs := by
  unfold RecordDraft.toStorable at h
  obtain ⟨_, _, h⟩ := bind_eq_ok_iff.1 h
  obtain ⟨_, _, h⟩ := bind_eq_ok_iff.1 h
  obtain ⟨_, _, h⟩ := bind_eq_ok_iff.1 h
  obtain ⟨_, _, h⟩ := bind_eq_ok_iff.1 h
  cases h
  rfl

/-- A revision is stored with the references that it has. -/
theorem refs_of_toStorable_revision
    {today : Date} {old row : RecordRow} {r : RecordRevision}
    (h : r.toStorable today old = .ok row) :
    row.refs = r.refs := by
  unfold RecordRevision.toStorable at h
  obtain ⟨_, _, h⟩ := bind_eq_ok_iff.1 h
  obtain ⟨_, _, h⟩ := bind_eq_ok_iff.1 h
  obtain ⟨_, _, h⟩ := bind_eq_ok_iff.1 h
  cases h
  rfl

/-- A link is stored for the record it is submitted to. -/
theorem record_of_toStorable
    {id : String} {l : LinkDraft} {row : LinkRow}
    (h : l.toStorable id = .ok row) :
    row.record = id := by
  unfold LinkDraft.toStorable at h
  split at h
  · cases h
  · obtain ⟨_, _, h⟩ := bind_eq_ok_iff.1 h
    obtain ⟨_, _, h⟩ := bind_eq_ok_iff.1 h
    split at h
    · cases h
    · cases h
      rfl

namespace Store

section Clearing

variable (s : Store) (id : String)

@[simp] theorem records_clearGiven (given : PerAttached (Option (List AttachedRef))) :
    (s.clearGiven id given).records = s.records := by
  simp only [clearGiven]
  split <;> split <;> rfl

@[simp] theorem keys_clearGiven
    (given : PerAttached (Option (List AttachedRef))) (k : Kind) :
    (s.clearGiven id given).keys k = s.keys k := by
  simp only [clearGiven]
  split <;> split <;> rfl

end Clearing

section Lookups

variable {s : Store} {k : Kind}

/-- Enrolling a row adds it, or nothing. -/
theorem edits_enrol (s : Store) (k : Kind) (c : Candidate String) :
    Edits s (s.enrol k c).2 := by
  unfold enrol
  split
  · exact .refl
  · rename_i h
    refine .single (.add k c.key ?_)
    intro e he hkey
    have := holder?_eq_none_iff.1 h e he hkey
    cases this

/-- Taking a row away that is not the unknown one is an edit. -/
theorem edit_of_dropLookup
    {id : Int} {s' : Store}
    (h : s.dropLookup k id = .ok s')
    (safe : isProtected k id = false) :
    Edit s s' := by
  obtain ⟨_, rfl⟩ := (s.dropLookup_eq_ok_iff k id).1 h
  exact .remove k id safe

theorem edits_of_remove
    {id : Int} {b : Bool} {s' : Store}
    (h : s.remove k id = .ok (b, s')) :
    Edits s s' := by
  cases removed_of_remove h with
  | absent _ => exact .refl
  | gone _ exposed dropped => exact .single (edit_of_dropLookup dropped exposed)

theorem edits_of_amend
    {id : Int} {p : Patch Wide} {row? : Option Lookup} {s' : Store}
    (h : s.amend k id p = .ok (row?, s')) :
    Edits s s' := by
  cases amended_of_amend h with
  | absent _ => exact .refl
  | renamed found _ free =>
      obtain ⟨hfound, _⟩ := lookup?_eq_some_iff.1 found
      refine .single (.rename k id _ ((s.keys k).contains_iff.2 ⟨_, hfound⟩) ?_)
      intro e he hkey
      exact Option.some.inj (holder?_eq_none_iff.1 free e he hkey)
  | @absorbed row other _ _ found _ held safe dropped =>
      obtain ⟨hfound, _⟩ := lookup?_eq_some_iff.1 found
      obtain ⟨hget, _, hne⟩ := get?_of_holder?_eq_some held
      obtain ⟨_, rfl⟩ := (s.dropLookup_eq_ok_iff k other.id).1 dropped
      cases k with
      | direct d =>
          have hid : id = unknownId := of_decide_eq_true safe
          subst hid
          have hne : other.id ≠ unknownId := fun e => hne (congrArg some e)
          have hunknown := (s.keys (.direct d)).contains_iff.2 ⟨_, hfound⟩
          simpa using Relation.ReflTransGen.single (Edit.absorb d other.id _ hunknown hget hne)
      | attached a => cases safe
  | yielded _ _ _ exposed dropped => exact .single (edit_of_dropLookup dropped exposed)

end Lookups

section Records

variable {s : Store} {id : String}

theorem keys_of_attach
    {a : AttachedKind} {refs : List AttachedRef} {s' : Store}
    (h : s.attach id a refs = .ok s')
    (k : Kind) :
    s'.keys k = s.keys k := by
  refine foldlM_invariant (P := fun t => t.keys k = s.keys k) ?_ rfl h
  rintro r - t t' hkeys ht
  obtain ⟨_, _, _, rfl⟩ := attachRow_eq_ok_iff.1 ht
  exact hkeys

theorem edits_of_attach
    {a : AttachedKind} {refs : List AttachedRef} {s' : Store}
    (owner : s.records.contains id = true)
    (h : s.attach id a refs = .ok s') :
    Edits s s' ∧ s'.records = s.records := by
  refine foldlM_invariant (P := fun t => Edits s t ∧ t.records = s.records) ?_
    ⟨.refl, rfl⟩ h
  rintro r - t t' ⟨hedits, hrecords⟩ ht
  obtain ⟨_, hfree, htarget, rfl⟩ := attachRow_eq_ok_iff.1 ht
  have howner : t.records.contains id = true := by
    rw [hrecords]
    exact owner
  exact ⟨hedits.tail (.attach a ⟨id, r.id, r.manual⟩ howner htarget hfree), hrecords⟩

theorem edits_pushAll_links
    {rows : List LinkRow}
    (owner : s.records.contains id = true)
    (howner : ∀ row ∈ rows, row.record = id) :
    Edits s { s with links := s.links.pushAll rows } := by
  induction rows generalizing s with
  | nil => exact .refl
  | cons row rows ih =>
      have hrow := howner row (by simp)
      have hstep : Edit s { s with links := s.links.push row } :=
        .link row (by rw [hrow]; exact owner)
      exact .head hstep
        (ih (s := { s with links := s.links.push row }) owner
          fun r hr => howner r (List.mem_cons_of_mem row hr))

theorem edits_of_insertLinks
    {links : List LinkDraft} {s' : Store}
    (owner : s.records.contains id = true)
    (h : s.insertLinks id links = .ok s') :
    Edits s s' ∧ s'.records = s.records := by
  unfold insertLinks at h
  obtain ⟨rows, hrows, h⟩ := bind_eq_ok_iff.1 h
  cases h
  refine ⟨edits_pushAll_links owner fun row hrow => ?_, rfl⟩
  obtain ⟨l, _, hl⟩ := mem_of_mapM_eq_ok hrows hrow
  exact record_of_toStorable hl

theorem edits_of_createRecord
    {today : Date} {d : RecordDraft} {s' : Store}
    (h : s.createRecord today id d = .ok s') :
    Edits s s' := by
  cases hid : s.records.contains id with
  | true =>
      rw [createRecord_of_contains hid] at h
      cases h
      exact .refl
  | false =>
      rw [createRecord_of_not_contains hid] at h
      obtain ⟨row, hrow, h⟩ := bind_eq_ok_iff.1 h
      obtain ⟨_, hresolves, h⟩ := bind_eq_ok_iff.1 h
      obtain ⟨t₁, h₁, h⟩ := bind_eq_ok_iff.1 h
      obtain ⟨t₂, h₂, h₃⟩ := bind_eq_ok_iff.1 h
      have hwrite : Edit s { s with records := s.records.put id row } := by
        refine .write id row fun k => Or.inr ?_
        rw [refs_of_toStorable_draft hrow]
        exact require_eq_ok_iff.1 hresolves k (DirectKind.mem_all k)
      have howner : (s.records.put id row).contains id = true := by simp
      obtain ⟨e₁, r₁⟩ :=
        edits_of_attach (s := { s with records := s.records.put id row }) howner h₁
      obtain ⟨e₂, r₂⟩ := edits_of_insertLinks (r₁ ▸ howner) h₂
      obtain ⟨e₃, _⟩ := edits_of_attach (r₂ ▸ r₁ ▸ howner) h₃
      exact .head hwrite ((e₁.trans e₂).trans e₃)

theorem edits_clearGiven (s : Store) (id : String)
    (given : PerAttached (Option (List AttachedRef))) :
    Edits s (s.clearGiven id given) := by
  unfold clearGiven
  have hone (t : Store) (a : AttachedKind) :
      Edits t (if (given.get a).isSome then t.detach id a else t) := by
    split
    · exact .single (.detach a id)
    · exact .refl
  exact (hone s .genre).trans (hone _ .idol)

theorem edits_of_reviseRecord
    {today : Date} {r : RecordRevision} {found? : Option Aggregate} {s' : Store}
    (h : s.reviseRecord today id r = .ok (found?, s')) :
    Edits s s' := by
  cases hold : s.records.get? id with
  | none =>
      rw [reviseRecord_of_none hold] at h
      cases h
      exact .refl
  | some old =>
      rw [reviseRecord_of_some hold] at h
      obtain ⟨row, hrow, h⟩ := bind_eq_ok_iff.1 h
      obtain ⟨_, hresolves, h⟩ := bind_eq_ok_iff.1 h
      obtain ⟨t₁, h₁, h⟩ := bind_eq_ok_iff.1 h
      obtain ⟨t₂, h₂, h⟩ := bind_eq_ok_iff.1 h
      obtain ⟨found, _, h⟩ := bind_eq_ok_iff.1 h
      cases h
      generalize ht : s.clearGiven id r.attached = t at hresolves h₁
      have e₀ : Edits s t := ht ▸ edits_clearGiven s id r.attached
      have hrecords : t.records = s.records := by
        rw [← ht, records_clearGiven]
      have hwrite : Edit t { t with records := t.records.put id row } := by
        refine .write id row fun k => ?_
        rw [refs_of_toStorable_revision hrow, hrecords]
        rcases require_eq_ok_iff.1 hresolves k (DirectKind.mem_all k) with h | h
        · exact Or.inl ⟨old, hold, h.symm⟩
        · exact Or.inr h
      have howner : (t.records.put id row).contains id = true := by simp
      obtain ⟨e₁, r₁⟩ :=
        edits_of_attach (s := { t with records := t.records.put id row }) howner h₁
      obtain ⟨e₂, _⟩ := edits_of_attach (r₁ ▸ howner) h₂
      exact e₀.trans (.head hwrite (e₁.trans e₂))

theorem edits_of_addLinks
    {today : Date} {links : List LinkDraft} {count? : Option Nat} {s' : Store}
    (h : s.addLinks today id links = .ok (count?, s')) :
    Edits s s' := by
  obtain ⟨_, _, rfl⟩ | ⟨old, rows, hold, hrows, _, rfl⟩ := linked_of_addLinks h
  · exact .refl
  · cases rows with
    | nil => exact .refl
    | cons l rows =>
        refine .head (.write id (linkedRow today old) fun k => Or.inl ⟨old, hold, rfl⟩) ?_
        exact (edits_of_insertLinks (by simp) (bind_eq_ok_iff.2 ⟨_, hrows, rfl⟩)).1

theorem edits_deleteRecord (s : Store) (id : String) :
    Edits s (s.deleteRecord id).2 := by
  unfold deleteRecord
  split
  · exact .single (.delete id)
  · exact .refl

end Records

section Submissions

theorem edits_enrolDirect (s : Store) (d : DirectKind) (c? : Option (Candidate String)) :
    Edits s (s.enrolDirect d c?).2 := by
  cases c? with
  | none => exact .refl
  | some c => exact edits_enrol s (.direct d) c

theorem edits_enrolRefs (s : Store) (direct : PerDirect (Option (Candidate String))) :
    Edits s (s.enrolRefs direct).2 :=
  (edits_enrolDirect s .director _).trans <|
    (edits_enrolDirect _ .studio _).trans <|
      (edits_enrolDirect _ .label _).trans (edits_enrolDirect _ .series _)

theorem edits_enrolAttached
    (s : Store) (a : AttachedKind) (rows : List (AttachedCandidate String)) :
    Edits s (s.enrolAttached a rows).2 := by
  induction rows generalizing s with
  | nil => exact .refl
  | cons row rows ih => exact (edits_enrol s (.attached a) row.row).trans (ih _)

theorem edits_enrolAttached?
    (s : Store) (a : AttachedKind) (rows? : Option (List (AttachedCandidate String))) :
    Edits s (s.enrolAttached? a rows?).2 := by
  cases rows? with
  | none => exact .refl
  | some rows => exact edits_enrolAttached s a rows

/-- The rows that a submission names are enrolled by edits. -/
theorem edits_enrolments
    (s : Store) (direct : PerDirect (Option (Candidate String)))
    (genres idols : List (AttachedCandidate String)) :
    Edits s
      (((s.enrolRefs direct).2.enrolAttached .genre genres).2.enrolAttached .idol idols).2 :=
  (edits_enrolRefs s direct).trans <|
    (edits_enrolAttached _ .genre genres).trans (edits_enrolAttached _ .idol idols)

/-- The rows that a resubmission names are enrolled by edits. -/
theorem edits_enrolments?
    (s : Store) (direct : PerDirect (Option (Candidate String)))
    (genres? idols? : Option (List (AttachedCandidate String))) :
    Edits s
      (((s.enrolRefs direct).2.enrolAttached? .genre genres?).2.enrolAttached? .idol idols?).2 :=
  (edits_enrolRefs s direct).trans <|
    (edits_enrolAttached? _ .genre genres?).trans (edits_enrolAttached? _ .idol idols?)

variable {s : Store} {id : String} {today : Date}

theorem edits_of_submit
    {sub : Submission} {found? : Option Aggregate} {s' : Store}
    (h : s.submit today id sub = .ok (found?, s')) :
    Edits s s' := by
  cases hid : s.records.contains id with
  | true =>
      rw [submit_of_contains hid] at h
      obtain ⟨_, _, h⟩ := map_eq_ok_iff.1 h
      cases h
      exact .refl
  | false =>
      rw [submit_of_not_contains hid] at h
      obtain ⟨direct, _, h⟩ := bind_eq_ok_iff.1 h
      obtain ⟨genres, _, h⟩ := bind_eq_ok_iff.1 h
      obtain ⟨idols, _, h⟩ := bind_eq_ok_iff.1 h
      obtain ⟨t, ht, h⟩ := bind_eq_ok_iff.1 h
      obtain ⟨_, _, h⟩ := bind_eq_ok_iff.1 h
      cases h
      exact (edits_enrolments s direct genres idols).trans (edits_of_createRecord ht)

theorem edits_of_resubmit
    {sub : Resubmission} {found? : Option Aggregate} {s' : Store}
    (h : s.resubmit today id sub = .ok (found?, s')) :
    Edits s s' := by
  cases hid : s.records.contains id with
  | true =>
      rw [resubmit_of_contains hid] at h
      obtain ⟨direct, _, h⟩ := bind_eq_ok_iff.1 h
      obtain ⟨genres?, _, h⟩ := bind_eq_ok_iff.1 h
      obtain ⟨idols?, _, h⟩ := bind_eq_ok_iff.1 h
      exact (edits_enrolments? s direct genres? idols?).trans (edits_of_reviseRecord h)
  | false =>
      rw [resubmit_of_not_contains hid] at h
      cases h
      exact .refl

end Submissions

end Store

section Runs

/-- An operation that answers leaves a store that is reached by edits. -/
theorem Operation.edits_of_run
    {today : Date} {op : Operation} {s s' : Store} {a : Answer}
    (h : op.run today s = .ok (a, s')) :
    Edits s s' := by
  cases ran_of_run h with
  | read _ _ => exact .refl
  | enrol _ => exact Store.edits_enrol s _ _
  | amend amended => exact Store.edits_of_amend amended
  | remove removed => exact Store.edits_of_remove removed
  | createRecord _ created => exact Store.edits_of_createRecord created
  | reviseRecord _ revised => exact Store.edits_of_reviseRecord revised
  | addLinks _ added => exact Store.edits_of_addLinks added
  | deleteRecord _ => exact Store.edits_deleteRecord s _
  | submit _ submitted => exact Store.edits_of_submit submitted
  | resubmit _ resubmitted => exact Store.edits_of_resubmit resubmitted

/-- An operation leads to the next store by edits, whether it answers or stops. -/
theorem Operation.edits_store
    (today : Date) (op : Operation) (s : Store) :
    Edits s ((op.run today).store s) := by
  exact Action.store_cases (op.run today) s (fun _ _ h => op.edits_of_run h) fun _ _ => .refl

/-- The store after operations, each on its own day; one that stops changes nothing. -/
def Store.after (s : Store) (steps : List (Date × Operation)) : Store :=
  steps.foldl (fun s step => (step.2.run step.1).store s) s

theorem Store.after_append (s : Store) (steps later : List (Date × Operation)) :
    s.after (steps ++ later) = (s.after steps).after later :=
  List.foldl_append

theorem Store.edits_after (s : Store) (steps : List (Date × Operation)) :
    Edits s (s.after steps) := by
  induction steps generalizing s with
  | nil => exact .refl
  | cons step steps ih => exact (step.2.edits_store step.1 s).trans (ih _)

/-- What every edit keeps holds after every run. -/
theorem Store.after_invariant
    {P : Store → Prop}
    (step : ∀ s s', Edit s s' → P s → P s')
    {s : Store}
    (hs : P s)
    (steps : List (Date × Operation)) :
    P (s.after steps) :=
  (s.edits_after steps).invariant step hs

end Runs

end CardCatalog
