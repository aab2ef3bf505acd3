import CardCatalog.Proofs.Pages
import CardCatalog.Proofs.Portrait
import CardCatalog.Proofs.Searching

/-!
# Which fault is reported

In a store that is not sound, records may point at rows that are not there.  Such a record cannot
be read back: its fault tells of the first direct kind whose row is missing.  A listing stops at
the first record that cannot be read back, and a page at the first one among its own rows, since
it is cut out of the bare rows; its count and its neighbours are those of all rows.

An attachment to a row that is not there is no fault, it is left out.

Results: what reading a record, a listing and a page comes to in any store
(`faults_reported`), and that an id with half of a pair, or too long a pattern, stops it also where
nothing is missing (`stops_without_missing_row`).
-/

namespace CardCatalog

open Calendar (Date)
open Text (Wide)

namespace Store

/-- The fault of a record: it tells of the first direct kind, in the order in which references are
resolved, whose row is not there. -/
def faultOf? (s : Store) (id : String) (row : RecordRow) : Option Fault :=
  DirectKind.all.findSome? fun d =>
    if (s.keys (.direct d)).contains (row.refs.get d) then none
    else some (.brokenReference id d (row.refs.get d))

/-- An aggregate shows a record row: its contents, the rows that it points at, the attached rows
that are there, in the order and with the marks of their attachments, and its links. -/
structure Shows (s : Store) (id : String) (row : RecordRow) (a : Aggregate) : Prop where
  ofId : a.id = id
  details : a.details = row.details
  refs : ∀ d, s.lookup? (.direct d) (row.refs.get d) = some (a.refs.get d)
  attached : ∀ k, (a.attached.get k).map (fun x => (x.row.id, x.manual))
    = ((s.attachments.get k).rows.filter fun e =>
        e.2.record = id ∧ (s.keys (.attached k)).contains e.2.target = true).map
          fun e => (e.2.target, e.2.manual)
  attachedRows : ∀ k, ∀ x ∈ a.attached.get k, s.lookup? (.attached k) x.row.id = some x.row
  links : a.links = s.links.rows.filter fun e => e.2.record = id
  created : a.created = row.created
  updated : a.updated = row.updated
  creator : a.creator = row.creator
  modifiedBy : a.modifiedBy = row.modifiedBy

/-- What reading records comes to, which stand in the order of their ids: the fault of the first
of them that has one, or an answer that shows all of them. -/
def Reports
    (s : Store) (rows : List (String × RecordRow)) (x : Except Fault (Answer × Store))
    (answer : List Aggregate → Answer) : Prop :=
  rows.Pairwise (fun a b => a.1 ≤ b.1) ∧
    match rows.findSome? fun e => s.faultOf? e.1 e.2 with
    | some fault => x = .error fault
    | none => ∃ found, List.Forall₂ (fun e a => s.Shows e.1 e.2 a) rows found ∧
        x = .ok (answer found, s)

theorem Reports.eq_error
    {s : Store} {rows : List (String × RecordRow)} {x : Except Fault (Answer × Store)}
    {answer : List Aggregate → Answer} {fault : Fault}
    (h : s.Reports rows x answer)
    (hfault : (rows.findSome? fun e => s.faultOf? e.1 e.2) = some fault) :
    x = .error fault := by
  have hx := h.2
  rwa [hfault] at hx

theorem Reports.exists_shown
    {s : Store} {rows : List (String × RecordRow)} {x : Except Fault (Answer × Store)}
    {answer : List Aggregate → Answer}
    (h : s.Reports rows x answer)
    (hnone : (rows.findSome? fun e => s.faultOf? e.1 e.2) = none) :
    ∃ found, List.Forall₂ (fun e a => s.Shows e.1 e.2 a) rows found ∧ x = .ok (answer found, s) := by
  have hx := h.2
  rwa [hnone] at hx

/-- The records that a filter accepts. -/
def accepted (s : Store) (f : RecordFilter) : List (String × RecordRow) :=
  s.records.rows.filter fun e => f.accepts e.1 e.2

section Assembling

variable {s : Store} {id : String} {row : RecordRow}

theorem resolve_eq_error_iff
    {d : DirectKind} {e : Fault} :
    s.resolve id row d = .error e ↔
      (if (s.keys (.direct d)).contains (row.refs.get d) then none
        else some (.brokenReference id d (row.refs.get d))) = some e := by
  unfold resolve lookup? Table.contains
  cases (s.keys (.direct d)).get? (row.refs.get d) <;> simp

/-- A record stops with its fault, if it has one. -/
theorem assemble_eq_error_iff
    {e : Fault} :
    s.assemble id row = .error e ↔ s.faultOf? id row = some e := by
  have hrefs : s.assemble id row = .error e ↔
      DirectKind.all.mapM (s.resolve id row) = .error e := by
    unfold assemble
    simp only [DirectKind.all, List.mapM_cons, List.mapM_nil, bind_eq_error_iff]
    simp [pure, Except.pure]
  rw [hrefs, mapM_eq_error_iff fun d _ e => resolve_eq_error_iff]
  rfl

/-- What is assembled shows the record. -/
theorem shows_of_assemble
    {a : Aggregate}
    (h : s.assemble id row = .ok a) :
    s.Shows id row a := by
  have hrefs := refs_of_assemble h
  have hattached (k : AttachedKind) : a.attached.get k = s.attachedRows id k := by
    rw [eq_of_assemble h]
    exact PerAttached.get_ofFn _ k
  refine
    { ofId := by rw [eq_of_assemble h]
      details := by rw [eq_of_assemble h]
      refs := hrefs
      attached := fun k => by rw [hattached, map_attachedRows]
      attachedRows := fun k x hx => ?attachedRows
      links := by rw [eq_of_assemble h]; rfl
      created := by rw [eq_of_assemble h]
      updated := by rw [eq_of_assemble h]
      creator := by rw [eq_of_assemble h]
      modifiedBy := by rw [eq_of_assemble h] }
  case attachedRows =>
    rw [hattached] at hx
    obtain ⟨e, _, hfound⟩ := List.mem_filterMap.1 hx
    split at hfound
    · obtain ⟨found, hlookup, rfl⟩ := Option.map_eq_some_iff.1 hfound
      have hid : found.id = e.2.target := (lookup?_eq_some_iff.1 hlookup).2
      rw [hid]
      exact hlookup
    · cases hfound

/-- Records that are read one after the other report the first fault, or all of them. -/
theorem reports_of_mapM
    {rows : List (String × RecordRow)} {answer : List Aggregate → Answer}
    {x : Except Fault (Answer × Store)}
    (sorted : rows.Pairwise fun a b => a.1 ≤ b.1)
    (h : x = (rows.mapM fun e => s.assemble e.1 e.2).map fun found => (answer found, s)) :
    s.Reports rows x answer := by
  have hstops (fault : Fault) :
      (rows.mapM fun e => s.assemble e.1 e.2) = .error fault ↔
        (rows.findSome? fun e => s.faultOf? e.1 e.2) = some fault :=
    mapM_eq_error_iff fun e _ _ => assemble_eq_error_iff
  refine ⟨sorted, ?_⟩
  rw [h]
  split
  · rename_i fault hfault
    rw [(hstops fault).2 hfault]
    rfl
  · rename_i hnone
    cases hread : rows.mapM fun e => s.assemble e.1 e.2 with
    | error fault =>
        rw [(hstops fault).1 hread] at hnone
        cases hnone
    | ok found =>
        exact ⟨found, (mapM_eq_ok_iff.1 hread).imp fun _ _ => shows_of_assemble, rfl⟩

end Assembling

section Order

variable {s : Store}

/-- Records stand in the order of their ids. -/
theorem pairwise_records (s : Store) :
    s.records.rows.Pairwise fun a b => a.1 ≤ b.1 :=
  s.ascending_records.imp fun hlt => String.not_lt.1 (String.lt_asymm hlt)

theorem pairwise_accepted (s : Store) (f : RecordFilter) :
    (s.accepted f).Pairwise fun a b => a.1 ≤ b.1 :=
  s.pairwise_records.filter _

/-- What a row is found with stands in the order of the ids. -/
theorem pairwise_recordsWith (s : Store) (k : Kind) (i : Int) :
    (s.recordsWith k i).Pairwise fun a b => a.1 ≤ b.1 := by
  cases k with
  | direct d => exact s.pairwise_records.filter _
  | attached a =>
      refine List.pairwise_flatMap.2 ⟨fun e _ => ?_, s.pairwise_records.imp fun hle x hx y hy => ?_⟩
      · -- one record, as often as it has attachments
        refine List.pairwise_of_forall_mem_list fun x hx y hy => ?_
        obtain ⟨_, _, rfl⟩ := List.mem_map.1 hx
        obtain ⟨_, _, rfl⟩ := List.mem_map.1 hy
        exact String.le_refl _
      · obtain ⟨_, _, rfl⟩ := List.mem_map.1 hx
        obtain ⟨_, _, rfl⟩ := List.mem_map.1 hy
        exact hle

theorem pairwise_cut
    {rows : List (String × RecordRow)}
    (q : PageRequest) (sorted : rows.Pairwise fun a b => a.1 ≤ b.1) :
    (q.cut rows).Pairwise fun a b => a.1 ≤ b.1 :=
  (sorted.drop).take

end Order

section Reading

variable {s : Store} {f : RecordFilter} {q : PageRequest}

theorem reports_listRecords (today : Date) (h : f.IsSearchable) :
    s.Reports (s.accepted f) (Operation.run today (.listRecords f) s) .records := by
  refine reports_of_mapM (s.pairwise_accepted f) ?_
  show (s.listRecords f).map (fun a => (Answer.records a, s)) = _
  unfold listRecords
  rw [s.matchingRecords_eq h, ok_bind_eq]
  rfl

/-- A page is cut out of bare rows, and only its own rows are assembled. -/
theorem reports_page
    {rows : List (String × RecordRow)} {x : Except Fault (Answer × Store)}
    (positive : 1 ≤ q.defaultLimit)
    (sorted : rows.Pairwise fun a b => a.1 ≤ b.1)
    (h : x = ((Page.inMemory rows q).mapM fun e => s.assemble e.1 e.2).map fun page =>
      (Answer.recordPage page, s)) :
    s.Reports (q.cut rows) x fun found => .recordPage (q.pageOf rows.length found) := by
  refine reports_of_mapM (pairwise_cut q sorted) ?_
  rw [h, mapM_inMemory_eq _ rows (q.effectiveLimit_pos positive)]
  cases (q.cut rows).mapM fun e => s.assemble e.1 e.2 <;> rfl

theorem reports_pageRecords
    (today : Date) (h : f.IsSearchable) (positive : 1 ≤ q.defaultLimit) :
    s.Reports (q.cut (s.accepted f)) (Operation.run today (.pageRecords f q) s)
      fun found => .recordPage (q.pageOf (s.accepted f).length found) := by
  refine reports_page positive (s.pairwise_accepted f) ?_
  show (s.pageRecords f q).map (fun a => (Answer.recordPage a, s)) = _
  unfold pageRecords
  rw [s.matchingRecords_eq h, ok_bind_eq]
  rfl

theorem reports_recordsBy
    (today : Date) (k : Kind) {i : Int}
    (range : Number.InRange i) (positive : 1 ≤ q.defaultLimit) :
    s.Reports (q.cut (s.recordsWith k i)) (Operation.run today (.recordsBy k i q) s)
      fun found => .recordPage (q.pageOf (s.recordsWith k i).length found) := by
  have hrange : checkRange [i] = .ok () :=
    checkRange_eq_ok_iff.2 fun n hn => List.mem_singleton.1 hn ▸ range
  refine reports_page positive (s.pairwise_recordsWith k i) ?_
  show (s.recordsBy k i q).map (fun a => (Answer.recordPage a, s)) = _
  unfold recordsBy
  rw [hrange, ok_bind_eq]

end Reading

/-- In any store, whatever is missing from it: a record is not found exactly if it is not there, and
else is read back or reported with its fault; a listing reports the first fault among the records
that its filter accepts; and a page, the first one among its own rows.  Without a fault all records
are shown, with the number and the neighbours that come from all rows. -/
theorem faults_reported (s : Store) (today : Date) :
    (∀ id : String, s.records.get? id = none →
      Operation.run today (.loadRecord id) s = .ok (.record none, s)) ∧
    (∀ (id : String) (row : RecordRow), s.records.get? id = some row →
      s.Reports [(id, row)] (Operation.run today (.loadRecord id) s)
        fun found => .record found.head?) ∧
    (∀ f : RecordFilter, f.IsSearchable →
      s.Reports (s.accepted f) (Operation.run today (.listRecords f) s) .records) ∧
    (∀ (f : RecordFilter) (q : PageRequest), f.IsSearchable → 1 ≤ q.defaultLimit →
      s.Reports (q.cut (s.accepted f)) (Operation.run today (.pageRecords f q) s)
        fun found => .recordPage (q.pageOf (s.accepted f).length found)) ∧
    ∀ (k : Kind) (i : Int) (q : PageRequest), Number.InRange i → 1 ≤ q.defaultLimit →
      s.Reports (q.cut (s.recordsWith k i)) (Operation.run today (.recordsBy k i q) s)
        fun found => .recordPage (q.pageOf (s.recordsWith k i).length found) := by
  refine ⟨fun id hmissing => ?_, fun id row hrow => ?_, fun f h => reports_listRecords today h,
    fun f q h positive => reports_pageRecords today h positive,
    fun k i q range positive => reports_recordsBy today k range positive⟩
  · rw [run_loadRecord, loadRecord_of_none hmissing]
    rfl
  · refine reports_of_mapM (List.pairwise_singleton _ _) ?_
    rw [run_loadRecord, loadRecord_of_some hrow, List.mapM_cons, List.mapM_nil]
    cases s.assemble id row <;> rfl

/-- Two records point at rows that are not there, and a third one has an attachment to such a row.
The third is shown without it; the listing reports the label of the first one, whose series is
missing too, and the pages of one record report what is wrong on them. -/
theorem reports_of_two_faults :
    let row (refs : PerDirect Int) : RecordRow :=
      ⟨{ title := "" }, refs, .epoch, .epoch, "", ""⟩
    let s : Store :=
      { Store.seeded with
        records := ((Table.empty.put "c" (row ⟨1, 2, 1, 1⟩)).put "b" (row ⟨1, 1, 7, 8⟩)).put "a"
          (row unknownRefs)
        attachments := ⟨Table.empty.push ⟨"a", 5, true⟩, Table.empty⟩ }
    let q (offset : Int) : PageRequest := { limit? := some 1, offset? := some offset }
    let run (op : Operation) := op.run .epoch s
    RecordFilter.IsSearchable {} ∧ Number.InRange 5 ∧ (1 : Int) ≤ 20 ∧
      s.records.get? "d" = none ∧ run (.loadRecord "d") = .ok (.record none, s) ∧
      s.records.get? "a" = some (row unknownRefs) ∧
      (∃ a, run (.loadRecord "a") = .ok (.record (some a), s) ∧ a.attached.genre = []) ∧
      run (.listRecords {}) = .error (.brokenReference "b" .label 7) ∧
      (∃ a, run (.pageRecords {} (q 0)) = .ok (.recordPage ⟨3, some ⟨1, 1⟩, none, [a]⟩, s)) ∧
      run (.pageRecords {} (q 2)) = .error (.brokenReference "c" .studio 2) ∧
      ∃ a, run (.recordsBy (.attached .genre) 5 (q 0))
        = .ok (.recordPage ⟨1, none, none, [a]⟩, s) := by
  intro row s q run
  have hsearch : RecordFilter.IsSearchable {} := by
    refine ⟨nofun, nofun, fun d n hn => ?_⟩
    cases d <;> cases hn
  have hrange : Number.InRange 5 := by decide
  have hdefault : (1 : Int) ≤ 20 := by decide
  have hmissing : s.records.get? "d" = none := by decide
  have hrow : s.records.get? "a" = some (row unknownRefs) := by decide
  obtain ⟨hnone, hload, hlist, hpage, hby⟩ := faults_reported s .epoch
  refine ⟨hsearch, hrange, hdefault, hmissing, hnone "d" hmissing, hrow, ?_,
    (hlist {} hsearch).eq_error (by decide), ?_,
    (hpage {} (q 2) hsearch hdefault).eq_error (by decide), ?_⟩
  · obtain ⟨found, hfound, hrun⟩ := (hload "a" _ hrow).exists_shown (by decide)
    obtain ⟨a, _, ha, hrest, rfl⟩ := List.forall₂_cons_left_iff.1 hfound
    have hgenres : (a.attached.genre).map (fun x => (x.row.id, x.manual)) = [] :=
      (ha.attached .genre).trans (by decide)
    exact ⟨a, hrun, List.map_eq_nil_iff.1 hgenres⟩
  · obtain ⟨found, hfound, hrun⟩ := (hpage {} (q 0) hsearch hdefault).exists_shown (by decide)
    have hcut : (q 0).cut (s.accepted {}) = [("a", row unknownRefs)] := by decide
    have hlength : (s.accepted {}).length = 3 := by decide
    rw [hcut] at hfound
    obtain ⟨a, _, _, hrest, rfl⟩ := List.forall₂_cons_left_iff.1 hfound
    cases hrest
    rw [hlength] at hrun
    exact ⟨a, hrun⟩
  · obtain ⟨found, hfound, hrun⟩ :=
      (hby (.attached .genre) 5 (q 0) hrange hdefault).exists_shown (by decide)
    have hcut : (q 0).cut (s.recordsWith (.attached .genre) 5) = [("a", row unknownRefs)] := by
      decide
    have hlength : (s.recordsWith (.attached .genre) 5).length = 1 := by decide
    rw [hcut] at hfound
    obtain ⟨a, _, _, hrest, rfl⟩ := List.forall₂_cons_left_iff.1 hfound
    cases hrest
    rw [hlength] at hrun
    exact ⟨a, hrun⟩

/-- Where no reference is broken, an id with half of a pair is not told to be missing, and a listing
with such a part, or with one of too many letters, stops. -/
theorem stops_without_missing_row :
    let s := seeded.after [(.epoch, .submit "a" {})]
    let half : Wide := ⟨[.half 0]⟩
    let long : Wide := Wide.ofText (String.ofList (List.replicate 50000 'a'))
    (∀ e ∈ s.records.rows, Wide.ofText e.1 ≠ half ∧ s.faultOf? e.1 e.2 = none) ∧
      Operation.run .epoch (.loadRecord half) s = .error (.unstorable half) ∧
      Operation.run .epoch (.listRecords { title? := some half }) s = .error (.unstorable half) ∧
      Operation.run .epoch (.listRecords { title? := some long }) s = .error .longPattern := by
  intro s half long
  refine ⟨by decide, rfl, rfl, ?_⟩
  have hlong : s.listRecords { title? := some long } = .error .longPattern := by
    refine listRecords_eq_error_of_long s (isBlank_replicate _) (partPattern_replicate _) ?_
      (by decide)
    rw [utf8ByteSize_replicate]
    decide
  clear_value long
  show (s.listRecords { title? := some long }).map _ = _
  rw [hlong]
  rfl

end Store
end CardCatalog
