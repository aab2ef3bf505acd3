import CardCatalog.Proofs.BrokenReferences
import CardCatalog.Proofs.Pages
import CardCatalog.Proofs.Portrait
import CardCatalog.Proofs.Uses

/-!
# Who refers to a row

The records that refer to a row are found in several ways: by the references that they show when
they are read back, by the pages of the records that the row is found with, by a listing under a
filter, and by number in the report of the kind.

In a sound store all ways agree.  Nothing dangles, so every record and every attached row is read
back; and no row is attached twice to one record, so the join of the records with the attachments
to a row has every record at most once, and as many as there are attachments.

Results: a row is found with every referring record once (`Sound.recordsWith_eq`), and all views
of the references of a store agree after every run (`referrers_after`).
-/

namespace CardCatalog

open Calendar (Date)
open Text (Wide)

/-- Whether an aggregate shows a reference to a row. -/
def Aggregate.RefersTo (a : Aggregate) (k : Kind) (i : Int) : Prop :=
  match k with
  | .direct d => (a.refs.get d).id = i
  | .attached t => i ∈ (a.attached.get t).map fun x => x.row.id

/-- The filter that asks for a reference to one row. -/
def RecordFilter.byReference (d : DirectKind) (i : Int) : RecordFilter where
  refs := .ofFn fun d' => if d' = d then some i else none

namespace Store

section Joining

variable {s : Store}

/-- Whether a record points at a row, or has it attached. -/
def Refers (s : Store) (k : Kind) (i : Int) (id : String) (row : RecordRow) : Prop :=
  match k with
  | .direct d => row.refs.get d = i
  | .attached a => ∃ e ∈ (s.attachments.get a).rows, e.2.record = id ∧ e.2.target = i

instance (s : Store) (k : Kind) (i : Int) (id : String) (row : RecordRow) :
    Decidable (s.Refers k i id row) :=
  match k with
  | .direct d => inferInstanceAs (Decidable (row.refs.get d = i))
  | .attached a =>
    inferInstanceAs (Decidable
      (∃ e ∈ (s.attachments.get a).rows, e.2.record = id ∧ e.2.target = i))

/-- The records that refer to a row, in the order of their ids. -/
def referring (s : Store) (k : Kind) (i : Int) : List (String × RecordRow) :=
  s.records.rows.filter fun e => s.Refers k i e.1 e.2

/-- A record is joined once with the attachments to a row, if it has the row at all. -/
theorem Sound.map_attachments_eq
    (h : s.Sound) (a : AttachedKind) (i : Int) (e : String × RecordRow) :
    (((s.attachments.get a).rows.filter fun x =>
        x.2.record = e.1 ∧ x.2.target = i).map fun _ => e)
      = if s.Refers (.attached a) i e.1 e.2 then [e] else [] := by
  have honce := (h.once a).filter fun x => decide (x.2.record = e.1 ∧ x.2.target = i)
  generalize hfound : ((s.attachments.get a).rows.filter fun x =>
    decide (x.2.record = e.1 ∧ x.2.target = i)) = found at honce
  have hmem : ∀ x, x ∈ found ↔
      x ∈ (s.attachments.get a).rows ∧ x.2.record = e.1 ∧ x.2.target = i := by
    intro x
    rw [← hfound, List.mem_filter, decide_eq_true_eq]
  cases found with
  | nil =>
      rw [if_neg, List.map_nil]
      rintro ⟨x, hx, hrefers⟩
      cases (hmem x).2 ⟨hx, hrefers⟩
  | cons x rest =>
      have hx := (hmem x).1 (by simp)
      cases rest with
      | nil =>
          rw [if_pos ⟨x, hx.1, hx.2⟩]
          rfl
      | cons y rest =>
          -- two attachments to the row would be one row attached twice
          have hy := (hmem y).1 (by simp)
          have hne := (List.pairwise_cons.1 honce).1 y (by simp)
          exact absurd ⟨hx.2.1.trans hy.2.1.symm, hx.2.2.trans hy.2.2.symm⟩ hne

/-- A row is found with every record that refers to it, once. -/
theorem Sound.recordsWith_eq
    (h : s.Sound) (k : Kind) (i : Int) :
    s.recordsWith k i = s.referring k i := by
  cases k with
  | direct d => rfl
  | attached a =>
      show s.records.rows.flatMap _ = s.records.rows.filter _
      rw [List.flatMap_congr fun e _ => h.map_attachments_eq a i e]
      induction s.records.rows with
      | nil => rfl
      | cons e es ih =>
          rw [List.flatMap_cons, ih]
          by_cases he : s.Refers (.attached a) i e.1 e.2 <;> simp [he]

/-- A row is used as often as records refer to it. -/
theorem Sound.length_referring
    (h : s.Sound) (k : Kind) (i : Int) :
    (s.referring k i).length = s.uses k i := by
  cases k with
  | direct d => exact (List.countP_eq_length_filter ..).symm
  | attached a =>
      -- the records are those of the attachments, which are different ones
      have hrecords : ((s.referring (.attached a) i).map Prod.fst).Nodup := by
        refine List.pairwise_map.2 ((s.records.ascending.filter _).imp fun hlt => ?_)
        exact Table.ne_of_compare_lt hlt
      have hattachments : (((s.attachments.get a).rows.filter fun x =>
          x.2.target = i).map fun x => x.2.record).Nodup := by
        refine List.pairwise_map.2 (List.pairwise_filter.2 ((h.once a).imp ?_))
        intro x y hne hx hy hsame
        exact hne ⟨hsame, (of_decide_eq_true hx).trans (of_decide_eq_true hy).symm⟩
      have hperm := (List.perm_ext_iff_of_nodup hrecords hattachments).2 fun r => by
        simp only [List.mem_map, referring, List.mem_filter, decide_eq_true_eq]
        constructor
        · rintro ⟨e, ⟨_, x, hx, hrecord, htarget⟩, rfl⟩
          exact ⟨x, ⟨hx, htarget⟩, hrecord⟩
        · rintro ⟨x, ⟨hx, htarget⟩, rfl⟩
          obtain ⟨row, hrow⟩ := s.records.contains_iff.1 (h.owner a x hx)
          exact ⟨(x.2.record, row), ⟨s.records.mem_rows_iff.2 hrow, x, hx, rfl, htarget⟩, rfl⟩
      have hlength := hperm.length_eq
      rw [List.length_map, List.length_map] at hlength
      rw [hlength]
      exact (List.countP_eq_length_filter ..).symm

end Joining

section Views

variable {s : Store} {k : Kind} {i : Int}

/-- A record that is read back shows the references that it has. -/
theorem Sound.refersTo_iff
    (h : s.Sound)
    {id : String} {row : RecordRow} {a : Aggregate}
    (assembled : s.assemble id row = .ok a) :
    a.RefersTo k i ↔ s.Refers k i id row := by
  cases k with
  | direct d =>
      have hfound := lookup?_eq_some_iff.1 (refs_of_assemble assembled d)
      show (a.refs.get d).id = i ↔ row.refs.get d = i
      rw [hfound.2]
  | attached t =>
      have hrows : a.attached.get t = s.attachedRows id t := by
        rw [eq_of_assemble assembled, PerAttached.get_ofFn]
      show i ∈ (a.attached.get t).map (fun x => x.row.id) ↔
        ∃ e ∈ (s.attachments.get t).rows, e.2.record = id ∧ e.2.target = i
      rw [hrows, List.mem_map]
      unfold attachedRows
      constructor
      · rintro ⟨x, hx, rfl⟩
        obtain ⟨e, he, hfound⟩ := List.mem_filterMap.1 hx
        split at hfound
        · rename_i hrecord
          obtain ⟨found, hlookup, rfl⟩ := Option.map_eq_some_iff.1 hfound
          exact ⟨e, he, hrecord, (lookup?_eq_some_iff.1 hlookup).2.symm⟩
        · cases hfound
      · rintro ⟨e, he, hrecord, rfl⟩
        obtain ⟨key, hkey⟩ := (s.keys (.attached t)).contains_iff.1 (h.target t e he)
        refine ⟨⟨⟨e.2.target, key⟩, e.2.manual⟩, List.mem_filterMap.2 ⟨e, he, ?_⟩, rfl⟩
        simp [hrecord, lookup?, hkey]

/-- The filter for a row of a direct kind finds the records that point at it. -/
theorem matchingRecords_byReference
    (d : DirectKind)
    (range : Number.InRange i) :
    s.matchingRecords (.byReference d i) = .ok (s.referring (.direct d) i) := by
  have hrange : checkRange (DirectKind.all.filterMap (RecordFilter.byReference d i).refs.get)
      = .ok () := by
    refine checkRange_eq_ok_iff.2 fun n hn => ?_
    obtain ⟨d', _, hd'⟩ := List.mem_filterMap.1 hn
    rw [RecordFilter.byReference, PerDirect.get_ofFn] at hd'
    split at hd' <;> cases hd'
    exact range
  have haccepts : ∀ e : String × RecordRow,
      (RecordFilter.byReference d i).accepts e.1 e.2 = decide (e.2.refs.get d = i) := by
    intro e
    cases d <;>
      simp [RecordFilter.accepts, RecordFilter.byReference, DirectKind.all, meetsPart,
        wantedPart?, meetsId, PerDirect.get, PerDirect.ofFn]
  unfold matchingRecords
  rw [hrange]
  show Except.ok (s.records.rows.filter fun e => _) = _
  simp only [haccepts]
  rfl

end Views

/-- All views of the references to a row agree on the records that have one.  Records can be asked
for by the row if its id is in the stored range, as it is while that range has room. -/
structure Referrers (s : Store) (k : Kind) (i : Int) (found : List Aggregate) : Prop where
  /-- No record comes twice, and they come in the order of their ids. -/
  ascending : found.Pairwise fun a b => a.id < b.id
  /-- They are the records that show a reference to the row when they are read back. -/
  loaded : ∀ a, a ∈ found ↔ s.loadRecord a.id = .ok (some a) ∧ a.RefersTo k i
  /-- The report of the kind counts them. -/
  counted : s.Counts k i found.length
  /-- Each page of the records by the row is a page of them, and tells their number. -/
  paged : Number.InRange i → ∀ q, ∃ page,
    s.recordsBy k i q = .ok page ∧ page = .inMemory found q ∧ page.count = found.length
  /-- The pages of the records by the row have them all, if there are enough pages. -/
  together : Number.InRange i → ∀ (limit count : Nat) (defaultLimit : Int),
    0 < limit → found.length ≤ count * limit →
      ∃ pages,
        (List.range count).mapM (fun index => s.recordsBy k i (.ofIndex limit index defaultLimit))
          = .ok pages ∧
        pages.flatMap Page.results = found
  /-- They are listed by the filter for a row of a direct kind. -/
  listed : Number.InRange i → ∀ d, k = .direct d →
    s.listRecords (.byReference d i) = .ok found

section Agreement

variable {s : Store} {k : Kind} {i : Int} {found : List Aggregate}

/-- What is read back of the referring records are the referring records that are read back. -/
theorem Sound.mem_found_iff
    (h : s.Sound)
    (assembled : (s.referring k i).mapM (fun e => s.assemble e.1 e.2) = .ok found)
    (a : Aggregate) :
    a ∈ found ↔ s.loadRecord a.id = .ok (some a) ∧ a.RefersTo k i := by
  have hall := mapM_eq_ok_iff.1 assembled
  constructor
  · intro ha
    obtain ⟨e, he, hassemble⟩ := mem_of_mapM_eq_ok assembled ha
    obtain ⟨hmem, hrefers⟩ := List.mem_filter.1 he
    have hid : a.id = e.1 := by
      rw [eq_of_assemble hassemble]
    refine ⟨?_, (h.refersTo_iff hassemble).2 (of_decide_eq_true hrefers)⟩
    rw [hid, loadRecord_of_some (s.records.mem_rows_iff.1 hmem), hassemble]
    rfl
  · rintro ⟨hload, hrefers⟩
    cases hrow : s.records.get? a.id with
    | none =>
        rw [loadRecord_of_none hrow] at hload
        cases hload
    | some row =>
        rw [loadRecord_of_some hrow] at hload
        obtain ⟨_, hassemble, hsame⟩ := map_eq_ok_iff.1 hload
        cases hsame
        have he : (a.id, row) ∈ s.referring k i := by
          refine List.mem_filter.2 ⟨s.records.get?_eq_some_iff.1 hrow, decide_eq_true ?_⟩
          exact (h.refersTo_iff hassemble).1 hrefers
        exact mem_answers_of_mapM_eq_ok assembled he hassemble

/-- The referring records are read back in the order of their ids. -/
theorem pairwise_found
    (assembled : (s.referring k i).mapM (fun e => s.assemble e.1 e.2) = .ok found) :
    found.Pairwise fun a b => a.id < b.id := by
  have hids : List.Forall₂ (fun x y => x = y) ((s.referring k i).map Prod.fst)
      (found.map Aggregate.id) := by
    rw [List.forall₂_map_left_iff, List.forall₂_map_right_iff]
    refine (mapM_eq_ok_iff.1 assembled).imp fun e a hassemble => ?_
    rw [eq_of_assemble hassemble]
  have hsorted : ((s.referring k i).map Prod.fst).Pairwise fun x y => x < y :=
    List.pairwise_map.2 (s.ascending_records.filter _)
  rw [List.forall₂_eq_eq_eq] at hids
  rw [hids] at hsorted
  exact List.pairwise_map.1 hsorted

/-- In a sound store, all views agree on the records that refer to a row. -/
theorem Sound.exists_referrers
    (h : s.Sound)
    (row : (s.keys k).contains i = true) :
    ∃ found, s.Referrers k i found := by
  have hassembles : ∀ e ∈ s.referring k i, ∃ a, s.assemble e.1 e.2 = .ok a := fun e he =>
    h.exists_assemble (s.records.mem_rows_iff.1 (List.mem_filter.1 he).1)
  obtain ⟨found, assembled⟩ := exists_mapM_eq_ok hassembles
  have hpaged (range : Number.InRange i) (q : PageRequest) :
      s.recordsBy k i q = .ok (.inMemory found q) := by
    have hrange : checkRange [i] = .ok () :=
      checkRange_eq_ok_iff.2 fun n hn => List.mem_singleton.1 hn ▸ range
    unfold recordsBy
    rw [hrange, ok_bind_eq, h.recordsWith_eq]
    exact mapM_inMemory assembled q
  refine ⟨found, pairwise_found assembled, h.mem_found_iff assembled, ?_, ?_, ?_, ?_⟩
  · refine counts_iff.2 ⟨row, ?_⟩
    rw [length_of_mapM_eq_ok assembled, h.length_referring]
  · intro range q
    exact ⟨_, hpaged range q, rfl, rfl⟩
  · intro range limit count defaultLimit positive enough
    refine ⟨(List.range count).map fun index =>
      .inMemory found (.ofIndex limit index defaultLimit), mapM_eq_ok_iff.2 ?_, ?_⟩
    · rw [List.forall₂_map_right_iff, List.forall₂_same]
      exact fun index _ => hpaged range _
    · rw [List.flatMap_map, flatMap_results_ofIndex found count defaultLimit positive]
      exact List.take_of_length_le enough
  · rintro range d rfl
    unfold listRecords
    rw [matchingRecords_byReference d range]
    exact assembled

end Agreement

/-- After every run on a fresh store, all views of the references to a row agree; and the report
of a kind has every row of the kind once, the most used first and by id among equals, with
counts that for a direct kind add up to the number of records. -/
theorem referrers_after (steps : List (Date × Operation)) (k : Kind) :
    let s := seeded.after steps
    (∀ i, (s.keys k).contains i = true → ∃ found, s.Referrers k i found) ∧
      ((s.recordCounts k).map fun c => (c.id, c.name)).Perm
        ((s.keys k).rows.map fun e => (e.1, e.2.name)) ∧
      ((s.recordCounts k).Pairwise fun a b =>
        b.count < a.count ∨ a.count = b.count ∧ a.id < b.id) ∧
      ∀ d, k = .direct d →
        ((s.recordCounts k).map RecordCount.count).sum = s.records.rows.length := by
  intro s
  have h : s.Sound := sound_after steps
  refine ⟨fun i row => h.exists_referrers row, map_recordCounts_perm s k,
    pairwise_recordCounts s k, ?_⟩
  rintro d rfl
  exact h.sum_recordCounts d

/-- A genre that two records share is counted twice, and found with both of them. -/
theorem referrers_of_shared_genre :
    let drama : List (AttachedCandidate Wide) := [⟨{ name := "Drama" }, false⟩]
    let s := seeded.after
      [ (.epoch, .submit "b" { attached := ⟨drama, []⟩ }),
        (.epoch, .submit "a" { attached := ⟨drama, []⟩ }) ]
    (s.keys (.attached .genre)).contains 1 = true ∧ Number.InRange 1 ∧
      ∃ found, s.Referrers (.attached .genre) 1 found ∧ found.length = 2 := by
  intro drama s
  have row : (s.keys (.attached .genre)).contains 1 = true := by decide
  have uses : s.uses (.attached .genre) 1 = 2 := by decide
  obtain ⟨found, hfound⟩ := (referrers_after _ (.attached .genre)).1 1 row
  exact ⟨row, by decide, found, hfound, (counts_iff.1 hfound.counted).2.symm.trans uses⟩

end Store
end CardCatalog
