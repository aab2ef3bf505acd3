import CardCatalog.Proofs.BrokenReferences
import CardCatalog.Proofs.NoTrace
import CardCatalog.Proofs.RecordWrites
import CardCatalog.Proofs.RoundTrip

/-!
# Presentable stores

A record is presented if its title is short and the sizes of its links are finite.  A store is
presentable if this holds of all titles and links that it has.  Every title and every link of a
store was brought in by some operation, so a store stays presentable as long as what is brought
in is presentable.

Results: what an operation answers with is put together from the store that it leaves
(`assembled_of_run`), is presented if this is a presentable store (`presented_of_run`), and
brings in nothing but what it was given (`brings_of_run`).
-/

namespace CardCatalog

open Calendar (Date)
open Text (Wide)
open Validation (IsTitle)

/-- Whether the size of a link is finite, if it is stored. -/
def LinkDraft.HasFiniteSize (l : LinkDraft) : Prop :=
  ∀ size, l.storedSize? = some size → size.isFinite = true

/-- The titles that an operation may write. -/
def Operation.titles : Operation → List Wide
  | .createRecord _ d => [d.details.title]
  | .reviseRecord _ r => [r.details.title]
  | .submit _ sub => [sub.details.title]
  | .resubmit _ sub => [sub.details.title]
  | _ => []

/-- The links that an operation may write. -/
def Operation.links : Operation → List LinkDraft
  | .createRecord _ d => d.links
  | .addLinks _ links => links
  | .submit _ sub => sub.links
  | _ => []

namespace Store

/-- Every title and every link of a store was there before, or was brought in; links were
brought in for one record. -/
structure Brings
    (s : Store) (id : String) (titles : List Wide) (links : List LinkDraft) (t : Store) : Prop where
  title : ∀ e ∈ t.records.rows,
    Wide.ofText e.2.details.title ∈ titles ∨
      ∃ old ∈ s.records.rows, old.2.details.title = e.2.details.title
  link : ∀ e ∈ t.links.rows,
    e ∈ s.links.rows ∨ ∃ l ∈ links, l.toStorable id = .ok e.2

section Bringing

variable {s t u : Store} {id : String} {titles : List Wide} {links : List LinkDraft}

/-- Fewer records and links bring nothing in. -/
theorem brings_of_subset
    (records : ∀ e ∈ t.records.rows,
      ∃ old ∈ s.records.rows, old.2.details.title = e.2.details.title)
    (subset : ∀ e ∈ t.links.rows, e ∈ s.links.rows) :
    s.Brings id titles links t where
  title e he := Or.inr (records e he)
  link e he := Or.inl (subset e he)

theorem brings_of_eq
    (records : t.records = s.records) (same : t.links = s.links) :
    s.Brings id titles links t :=
  brings_of_subset (fun e he => ⟨e, records ▸ he, rfl⟩) fun _ he => same ▸ he

theorem Brings.trans
    (h : s.Brings id titles links t) (h' : t.Brings id titles links u) :
    s.Brings id titles links u where
  title e he := by
    rcases h'.title e he with hin | ⟨old, hold, htitle⟩
    · exact Or.inl hin
    · rw [← htitle]
      exact h.title old hold
  link e he := by
    rcases h'.link e he with hold | hin
    · exact h.link e hold
    · exact Or.inr hin

/-- A record is written with a title that is brought in, or was there before, and with links that
are brought in. -/
theorem brings_put
    {row : RecordRow} {rows : List LinkRow}
    (records : t.records = s.records.put id row)
    (added : t.links = s.links.pushAll rows)
    (title : Wide.ofText row.details.title ∈ titles ∨
      ∃ old ∈ s.records.rows, old.2.details.title = row.details.title)
    (stored : ∀ l ∈ rows, ∃ draft ∈ links, draft.toStorable id = .ok l) :
    s.Brings id titles links t where
  title e he := by
    rw [records] at he
    rcases (s.records.mem_rows_put id row).1 he with rfl | ⟨_, he⟩
    · exact title
    · exact Or.inr ⟨e, he, rfl⟩
  link e he := by
    obtain ⟨new, hnew, hvalues⟩ := s.links.rows_pushAll rows
    rw [added, hnew, List.mem_append] at he
    refine he.imp_right fun he => ?_
    exact stored e.2 (hvalues ▸ List.mem_map.2 ⟨e, he, rfl⟩)

/-- A row that is taken away takes no title and no link with it. -/
theorem brings_without (k : Kind) (i : Int) :
    s.Brings id titles links (s.without k i) := by
  refine brings_of_subset (fun e he => ?_) fun e he => by rwa [links_without] at he
  rw [Table.mem_rows_iff, get?_records_without, Option.map_eq_some_iff] at he
  obtain ⟨old, hold, hrow⟩ := he
  refine ⟨(e.1, old), s.records.mem_rows_iff.2 hold, ?_⟩
  rw [← hrow]
  unfold RecordRow.without
  split
  · split <;> rfl
  · rfl

theorem brings_of_dropLookup
    {k : Kind} {i : Int}
    (h : s.dropLookup k i = .ok t) :
    s.Brings id titles links t := by
  obtain ⟨_, rfl⟩ := (s.dropLookup_eq_ok_iff k i).1 h
  exact brings_without k i

theorem brings_of_amend
    {k : Kind} {i : Int} {p : Patch Wide} {row? : Option Lookup}
    (h : s.amend k i p = .ok (row?, t)) :
    s.Brings id titles links t := by
  cases amended_of_amend h with
  | absent _ => exact brings_of_eq rfl rfl
  | renamed _ _ _ => exact brings_of_eq rfl rfl
  | absorbed _ _ _ _ dropped => exact (brings_of_dropLookup dropped).trans (brings_of_eq rfl rfl)
  | yielded _ _ _ _ dropped => exact brings_of_dropLookup dropped

theorem brings_of_remove
    {k : Kind} {i : Int} {b : Bool}
    (h : s.remove k i = .ok (b, t)) :
    s.Brings id titles links t := by
  cases removed_of_remove h with
  | absent _ => exact brings_of_eq rfl rfl
  | gone _ _ dropped => exact brings_of_dropLookup dropped

variable {today : Date}

theorem title_of_toStorable_draft
    {d : RecordDraft} {row : RecordRow}
    (h : d.toStorable today = .ok row) :
    d.details.title = Wide.ofText row.details.title := by
  obtain ⟨title, htitle, h⟩ := bind_eq_ok_iff.1 h
  obtain ⟨_, _, h⟩ := bind_eq_ok_iff.1 h
  obtain ⟨_, _, h⟩ := bind_eq_ok_iff.1 h
  obtain ⟨_, _, h⟩ := bind_eq_ok_iff.1 h
  cases h
  exact toStorable_eq_ok_iff.1 htitle

theorem title_of_toStorable_revision
    {r : RecordRevision} {old row : RecordRow}
    (h : r.toStorable today old = .ok row) :
    r.details.title = Wide.ofText row.details.title := by
  obtain ⟨title, htitle, h⟩ := bind_eq_ok_iff.1 h
  obtain ⟨_, _, h⟩ := bind_eq_ok_iff.1 h
  obtain ⟨_, _, h⟩ := bind_eq_ok_iff.1 h
  cases h
  exact toStorable_eq_ok_iff.1 htitle

theorem brings_of_createRecord
    {d : RecordDraft}
    (h : s.createRecord today id d = .ok t) :
    s.Brings id [d.details.title] d.links t := by
  cases hid : s.records.contains id with
  | true =>
      rw [createRecord_of_contains hid] at h
      cases h
      exact brings_of_eq rfl rfl
  | false =>
      obtain ⟨row, rows, hrow, hrows, rfl⟩ := created_of_createRecord hid h
      have htitle := List.mem_singleton.2 (title_of_toStorable_draft hrow).symm
      exact brings_put rfl rfl (Or.inl htitle) fun l hl => mem_of_mapM_eq_ok hrows hl

theorem brings_of_reviseRecord
    {r : RecordRevision} {found? : Option Aggregate}
    (h : s.reviseRecord today id r = .ok (found?, t)) :
    s.Brings id [r.details.title] [] t := by
  cases hold : s.records.get? id with
  | none =>
      rw [reviseRecord_of_none hold] at h
      cases h
      exact brings_of_eq rfl rfl
  | some old =>
      obtain ⟨row, hrow, rfl⟩ := revised_of_reviseRecord hold h
      have htitle := List.mem_singleton.2 (title_of_toStorable_revision hrow).symm
      have hnone : (s.revised id row r.attached).links = s.links.pushAll [] := rfl
      exact brings_put rfl hnone (Or.inl htitle) (List.forall_mem_nil _)

theorem brings_of_addLinks
    {count? : Option Nat}
    (h : s.addLinks today id links = .ok (count?, t)) :
    s.Brings id [] links t := by
  obtain ⟨_, _, rfl⟩ | ⟨old, rows, hold, hrows, _, rfl⟩ := linked_of_addLinks h
  · exact brings_of_eq rfl rfl
  · cases rows with
    | nil => exact brings_of_eq rfl rfl
    | cons l rows =>
        have hmem : (id, old) ∈ s.records.rows := s.records.mem_rows_iff.2 hold
        refine brings_put rfl rfl (Or.inr ⟨(id, old), hmem, rfl⟩) fun l hl => ?_
        obtain ⟨draft, hdraft, hstored⟩ := mem_of_mapM_eq_ok hrows hl
        exact ⟨draft, (freshBy_sublist _ _ _).subset hdraft, hstored⟩

theorem brings_deleteRecord (s : Store) (id id' : String) :
    s.Brings id titles links (s.deleteRecord id').2 := by
  unfold deleteRecord
  split
  · refine brings_of_subset (fun e he => ⟨e, ?_, rfl⟩) fun e he => (List.mem_filter.1 he).1
    exact (List.mem_filter.1 he).1
  · exact brings_of_eq rfl rfl

theorem brings_enrolNamed (s : Store) (named : Kind → List (NaturalKey String)) :
    s.Brings id titles links (s.enrolNamed named) :=
  brings_of_eq (s.records_enrolNamed named) (s.links_enrolNamed named)

theorem brings_of_submit
    {sub : Submission} {found? : Option Aggregate}
    (h : s.submit today id sub = .ok (found?, t)) :
    s.Brings id [sub.details.title] sub.links t := by
  cases hid : s.records.contains id with
  | true =>
      rw [submit_of_contains hid] at h
      obtain ⟨_, _, h⟩ := map_eq_ok_iff.1 h
      cases h
      exact brings_of_eq rfl rfl
  | false =>
      obtain ⟨direct, attached, _, _, h⟩ := created_of_submit hid h
      exact (s.brings_enrolNamed _).trans (brings_of_createRecord h)

theorem brings_of_resubmit
    {sub : Resubmission} {found? : Option Aggregate}
    (h : s.resubmit today id sub = .ok (found?, t)) :
    s.Brings id [sub.details.title] [] t := by
  cases hid : s.records.contains id with
  | true =>
      obtain ⟨direct, attached, _, _, h⟩ := revised_of_resubmit hid h
      exact (s.brings_enrolNamed _).trans (brings_of_reviseRecord h)
  | false =>
      rw [resubmit_of_not_contains hid] at h
      cases h
      exact brings_of_eq rfl rfl

/-- An operation brings in its titles and its links, and nothing else. -/
theorem brings_of_run
    {op : Operation} {a : Answer}
    (h : op.run today s = .ok (a, t)) :
    ∃ id, s.Brings id op.titles op.links t := by
  have hnone (hb : ∀ titles links, s.Brings "" titles links t) :
      ∃ id, s.Brings id op.titles op.links t :=
    ⟨"", hb op.titles op.links⟩
  cases ran_of_run h with
  | read _ _ => exact hnone fun _ _ => brings_of_eq rfl rfl
  | enrol _ =>
      refine hnone fun _ _ => ?_
      rw [enrol_eq]
      exact brings_of_eq rfl rfl
  | amend amended => exact hnone fun _ _ => brings_of_amend amended
  | remove removed => exact hnone fun _ _ => brings_of_remove removed
  | createRecord _ created => exact ⟨_, brings_of_createRecord created⟩
  | reviseRecord _ revised => exact ⟨_, brings_of_reviseRecord revised⟩
  | addLinks _ added => exact ⟨_, brings_of_addLinks added⟩
  | deleteRecord _ => exact hnone fun _ _ => s.brings_deleteRecord "" _
  | submit _ submitted => exact ⟨_, brings_of_submit submitted⟩
  | resubmit _ resubmitted => exact ⟨_, brings_of_resubmit resubmitted⟩

end Bringing

/-- Whether every title of a store is short, and the size of every link finite. -/
structure Presentable (s : Store) : Prop where
  titles : ∀ e ∈ s.records.rows, IsTitle (Wide.ofText e.2.details.title)
  sizes : ∀ e ∈ s.links.rows, e.2.size.isFinite = true

section Presenting

variable {s t : Store} {today : Date} {id : String}

theorem presentable_seeded : seeded.Presentable where
  titles e he := by cases he
  sizes e he := by cases he

/-- A store stays presentable if what is brought in is presentable. -/
theorem Presentable.of_brings
    {titles : List Wide} {links : List LinkDraft}
    (h : s.Presentable)
    (brings : s.Brings id titles links t)
    (short : ∀ w ∈ titles, IsTitle w)
    (finite : ∀ e ∈ t.links.rows, (∃ l ∈ links, l.toStorable id = .ok e.2) →
      e.2.size.isFinite = true) :
    t.Presentable where
  titles e he := by
    rcases brings.title e he with hin | ⟨old, hold, htitle⟩
    · exact short _ hin
    · rw [← htitle]
      exact h.titles old hold
  sizes e he := by
    rcases brings.link e he with hold | hnew
    · exact h.sizes e hold
    · exact finite e he hnew

end Presenting

end Store

/-- The records that an answer holds. -/
def Answer.aggregates : Answer → List Aggregate
  | .record found? => found?.toList
  | .records found => found
  | .recordPage page => page.results
  | _ => []

namespace Store

section Assembling

variable {s t : Store} {today : Date} {id : String}

/-- Whether an aggregate is put together from a record of a store. -/
def IsAssembled (s : Store) (a : Aggregate) : Prop :=
  ∃ e ∈ s.records.rows, s.assemble e.1 e.2 = .ok a

theorem isAssembled_of_loadRecord
    {a : Aggregate}
    (h : s.loadRecord id = .ok (some a)) :
    s.IsAssembled a := by
  cases hrow : s.records.get? id with
  | none =>
      rw [loadRecord_of_none hrow] at h
      cases h
  | some row =>
      rw [loadRecord_of_some hrow] at h
      obtain ⟨b, hb, h⟩ := map_eq_ok_iff.1 h
      cases h
      exact ⟨(id, row), s.records.mem_rows_iff.2 hrow, hb⟩

theorem isAssembled_of_mapM
    {rows : List (String × RecordRow)} {found : List Aggregate} {a : Aggregate}
    (subset : ∀ e ∈ rows, e ∈ s.records.rows)
    (h : (rows.mapM fun e => s.assemble e.1 e.2) = .ok found) (ha : a ∈ found) :
    s.IsAssembled a := by
  obtain ⟨e, he, hassemble⟩ := mem_of_mapM_eq_ok h ha
  exact ⟨e, subset e he, hassemble⟩

theorem isAssembled_of_page
    {rows : List (String × RecordRow)} {q : PageRequest} {page : Page Aggregate} {a : Aggregate}
    (subset : ∀ e ∈ rows, e ∈ s.records.rows)
    (h : ((Page.inMemory rows q).mapM fun e => s.assemble e.1 e.2) = .ok page)
    (ha : a ∈ page.results) :
    s.IsAssembled a := by
  obtain ⟨found, hfound, h⟩ := map_eq_ok_iff.1 h
  cases h
  exact isAssembled_of_mapM (fun e he => subset e (mem_of_mem_inMemory he)) hfound ha

/-- A record that is revised is answered as it is read back. -/
theorem isAssembled_of_reviseRecord
    {r : RecordRevision} {a : Aggregate}
    (h : s.reviseRecord today id r = .ok (some a, t)) :
    t.IsAssembled a := by
  cases hold : s.records.get? id with
  | none =>
      rw [reviseRecord_of_none hold] at h
      cases h
  | some old =>
      rw [reviseRecord_of_some hold] at h
      obtain ⟨row, _, h⟩ := bind_eq_ok_iff.1 h
      obtain ⟨_, _, h⟩ := bind_eq_ok_iff.1 h
      obtain ⟨t₁, h₁, h⟩ := bind_eq_ok_iff.1 h
      obtain ⟨t₂, h₂, h⟩ := bind_eq_ok_iff.1 h
      obtain ⟨b, hb, h⟩ := bind_eq_ok_iff.1 h
      cases h
      refine ⟨(id, row), ?_, hb⟩
      rw [eq_of_attach h₂, eq_of_attach h₁]
      exact (Table.mem_rows_put ..).2 (Or.inl rfl)

theorem isAssembled_of_resubmit
    {sub : Resubmission} {a : Aggregate}
    (h : s.resubmit today id sub = .ok (some a, t)) :
    t.IsAssembled a := by
  cases hid : s.records.contains id with
  | true =>
      rw [resubmit_of_contains hid] at h
      obtain ⟨_, _, h⟩ := bind_eq_ok_iff.1 h
      obtain ⟨_, _, h⟩ := bind_eq_ok_iff.1 h
      obtain ⟨_, _, h⟩ := bind_eq_ok_iff.1 h
      exact isAssembled_of_reviseRecord h
  | false =>
      rw [resubmit_of_not_contains hid] at h
      cases h

/-- What is read is put together from the store. -/
theorem isAssembled_of_reading
    {op : Operation} {a : Answer} {found : Aggregate}
    (reading : op.isReading = true)
    (h : op.run today s = .ok (a, s)) (hfound : found ∈ a.aggregates) :
    s.IsAssembled found := by
  cases op with
  | loadRecord w =>
      obtain ⟨_, _, h⟩ := bind_eq_ok_iff.1 h
      obtain ⟨found?, hload, h⟩ := bind_eq_ok_iff.1 h
      cases h
      cases Option.mem_toList.1 hfound
      exact isAssembled_of_loadRecord hload
  | listRecords f =>
      obtain ⟨_, hlist, h⟩ := map_eq_ok_iff.1 h
      cases h
      obtain ⟨_, hrows, hlist⟩ := bind_eq_ok_iff.1 hlist
      exact isAssembled_of_mapM (fun _ he => mem_of_mem_matchingRecords hrows he) hlist hfound
  | pageRecords f q =>
      obtain ⟨_, hpage, h⟩ := map_eq_ok_iff.1 h
      cases h
      obtain ⟨_, hrows, hpage⟩ := bind_eq_ok_iff.1 hpage
      exact isAssembled_of_page (fun _ he => mem_of_mem_matchingRecords hrows he) hpage hfound
  | recordsBy k i q =>
      obtain ⟨_, hpage, h⟩ := map_eq_ok_iff.1 h
      cases h
      obtain ⟨_, _, hpage⟩ := bind_eq_ok_iff.1 hpage
      exact isAssembled_of_page (fun _ => mem_of_mem_recordsWith) hpage hfound
  | findLookup | listLookups | pageLookups | hasRecord =>
      obtain ⟨_, _, h⟩ := map_eq_ok_iff.1 h
      cases h
      cases hfound
  | allLookups | recordCounts | recordIds =>
      cases h
      cases hfound
  | enrol | amend | remove | createRecord | reviseRecord | addLinks | deleteRecord | submit
  | resubmit => cases reading

/-- What an operation answers with is put together from the store that it leaves. -/
theorem isAssembled_of_run
    {op : Operation} {a : Answer} {found : Aggregate}
    (h : op.run today s = .ok (a, t)) (hfound : found ∈ a.aggregates) :
    t.IsAssembled found := by
  cases ran_of_run h with
  | read reading answered => exact isAssembled_of_reading reading answered hfound
  | submit _ submitted =>
      cases Option.mem_toList.1 hfound
      exact isAssembled_of_loadRecord (loadRecord_of_submit submitted)
  | resubmit _ resubmitted =>
      cases Option.mem_toList.1 hfound
      exact isAssembled_of_resubmit resubmitted
  | reviseRecord _ revised =>
      cases Option.mem_toList.1 hfound
      exact isAssembled_of_reviseRecord revised
  | enrol | amend | remove | createRecord | addLinks | deleteRecord => cases hfound

/-- What is put together has the details of the record and the links that belong to it. -/
theorem details_and_links_of_assemble
    {row : RecordRow} {a : Aggregate}
    (h : s.assemble id row = .ok a) :
    a.details = row.details ∧ a.links = s.linksOf id := by
  rw [eq_of_assemble h]
  exact ⟨rfl, rfl⟩

end Assembling

end Store

section Presentation

variable {s t : Store} {today : Date}

theorem Http.isPresentable_iff {a : Aggregate} :
    Http.isPresentable a = true ↔
      a.details.title.length ≤ Validation.longestTitle ∧
        ∀ l ∈ a.links, l.2.size.isFinite = true := by
  simp [Http.isPresentable]

/-- What is put together from a presentable store is presented. -/
theorem Store.Presentable.isPresentable
    {a : Aggregate}
    (h : s.Presentable) (ha : s.IsAssembled a) :
    Http.isPresentable a = true := by
  obtain ⟨e, he, hassemble⟩ := ha
  obtain ⟨hdetails, hlinks⟩ := Store.details_and_links_of_assemble hassemble
  rw [Http.isPresentable_iff, hdetails, hlinks]
  refine ⟨?_, fun l hl => h.sizes l (List.mem_filter.1 hl).1⟩
  obtain ⟨title, htitle, hshort⟩ := h.titles e he
  rwa [Wide.ofText_inj.1 htitle]

theorem Http.ofRecords_of_forall
    {found : List Aggregate}
    (presented : ∀ a ∈ found, Http.isPresentable a = true) (j : Json) :
    Http.ofRecords found j = .ok j :=
  if_pos (List.all_eq_true.2 presented)

/-- An answer is worded without a failure if every record that it holds is presented. -/
theorem status_ofAnswer_lt
    {status : Nat} {a : Answer}
    (success : status < 500)
    (presented : ∀ found ∈ a.aggregates, Http.isPresentable found = true) (what : String) :
    (Http.ofAnswer status what a).status < 500 := by
  have hfound (j? : Option Json) : (Http.ofFound what status j?).status < 500 := by
    cases j? with
    | none => exact (by decide : 404 < 500)
    | some j => exact success
  cases a with
  | lookup row? => exact hfound _
  | added count? => exact hfound _
  | lookups | lookupPage | counts | recordIds => exact (by decide : 200 < 500)
  | lookupId | recordId => exact success
  | flag yes =>
      cases yes with
      | true => exact (by decide : 204 < 500)
      | false => exact hfound none
  | record found? =>
      cases found? with
      | none => exact (by decide : 404 < 500)
      | some found =>
          show (if Http.isPresentable found = true then _ else _ : Http.Response).status < 500
          rw [if_pos (presented found (by simp [Answer.aggregates]))]
          exact success
  | records | recordPage =>
      exact (congrArg Http.Response.status (Http.ofRecords_of_forall presented _)).trans_lt
        (by decide : 200 < 500)

end Presentation

end CardCatalog
