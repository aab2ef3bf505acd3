import CardCatalog.Proofs.Soundness

/-!
# Broken references

A record that is read back is assembled with the rows it points at, and stops the reading
if one of them is missing.  In a sound store this happens to nobody.  Each operation is
followed to the places where it assembles a record; all other faults are of other sorts.

Results: no operation after any run on a fresh store finds a broken reference
(`sound_after_and_never_broken`).
-/

namespace CardCatalog

open Calendar (Date)
open Text (Wide)

/-- Whether a fault is that a record points at a row that does not exist. -/
def Fault.isBrokenReference : Fault → Bool
  | .brokenReference .. => true
  | _ => false

/-- A computation that never finds a broken reference. -/
abbrev Spared {α : Type} (x : Except Fault α) : Prop :=
  StopsWithin (fun e => e.isBrokenReference = false) x

section Storing

theorem spared_checkRange (ns : List Int) : Spared (checkRange ns) :=
  stopsWithin_checkRange rfl

theorem spared_require
    {p : Prop} [Decidable p] {fault : Fault}
    (h : fault.isBrokenReference = false) :
    Spared (require p fault) :=
  stopsWithin_require h

theorem spared_toStorable (w : Wide) : Spared w.toStorable :=
  stopsWithin_toStorable rfl

theorem spared_candidate (c : Candidate Wide) : Spared c.toStorable := by
  refine (spared_toStorable _).bind fun _ _ => ?_
  refine (StopsWithin.option_mapM fun w _ => spared_toStorable w).bind fun _ _ => ?_
  exact stopsWithin_ok _

theorem spared_patch (p : Patch Wide) : Spared p.toStorable := by
  refine (StopsWithin.option_mapM fun w _ => spared_toStorable w).bind fun _ _ => ?_
  refine (StopsWithin.option_mapM fun w _ => spared_toStorable w).bind fun _ _ => ?_
  exact stopsWithin_ok _

theorem spared_patternOf (criterion? : Option Wide) : Spared (patternOf criterion?) :=
  stopsWithin_patternOf fun _ => rfl

theorem spared_checkSearch
    {α : Type} (pattern? : Option String) (rows : List α) :
    Spared (checkSearch pattern? rows) :=
  stopsWithin_checkSearch rfl

theorem spared_link (id : String) (l : LinkDraft) : Spared (l.toStorable id) := by
  unfold LinkDraft.toStorable
  split
  · intro e h
    cases h
    rfl
  · refine (spared_toStorable _).bind fun _ _ => ?_
    refine (spared_toStorable _).bind fun _ _ => ?_
    split
    · intro e h
      cases h
      rfl
    · exact stopsWithin_ok _

theorem spared_draft (today : Date) (d : RecordDraft) : Spared (d.toStorable today) := by
  refine (spared_toStorable _).bind fun _ _ => ?_
  refine (spared_checkRange _).bind fun _ _ => ?_
  refine (spared_toStorable _).bind fun _ _ => ?_
  refine (spared_toStorable _).bind fun _ _ => ?_
  exact stopsWithin_ok _

theorem spared_revision (today : Date) (old : RecordRow) (r : RecordRevision) :
    Spared (r.toStorable today old) := by
  refine (spared_toStorable _).bind fun _ _ => ?_
  refine (spared_checkRange _).bind fun _ _ => ?_
  refine (spared_toStorable _).bind fun _ _ => ?_
  exact stopsWithin_ok _

theorem spared_attachedRows (rows : List (AttachedCandidate Wide)) :
    Spared (storableRows rows) :=
  StopsWithin.mapM fun row _ => (spared_candidate row.row).map _

theorem spared_directRows (direct : PerDirect (Option (Candidate Wide))) :
    Spared (storableDirect direct) := by
  have hone (d : DirectKind) : Spared ((direct.get d).mapM Candidate.toStorable) :=
    StopsWithin.option_mapM fun c _ => spared_candidate c
  refine (hone .director).bind fun _ _ => ?_
  refine (hone .studio).bind fun _ _ => ?_
  refine (hone .label).bind fun _ _ => ?_
  refine (hone .series).bind fun _ _ => ?_
  exact stopsWithin_ok _

end Storing

namespace Store

section Lookups

variable (s : Store) (k : Kind)

theorem spared_findLookup (id : Int) : Spared (s.findLookup k id) :=
  (spared_checkRange _).bind fun _ _ => stopsWithin_ok _

theorem spared_listLookups (f : LookupFilter) : Spared (s.listLookups k f) := by
  refine (spared_checkRange _).bind fun _ _ => ?_
  refine (spared_patternOf _).bind fun _ _ => ?_
  refine (spared_patternOf _).bind fun _ _ => ?_
  refine (spared_checkSearch _ _).bind fun _ _ => ?_
  refine (spared_checkSearch _ _).bind fun _ _ => ?_
  exact stopsWithin_ok _

theorem spared_pageLookups (f : LookupFilter) (q : PageRequest) :
    Spared (s.pageLookups k f q) := by
  have hwindow : Spared q.window := by
    unfold PageRequest.window
    dsimp only
    split
    · intro e h
      cases h
      rfl
    · exact stopsWithin_ok _
  refine hwindow.bind fun w _ => ?_
  refine ((s.spared_listLookups k f).map _).bind fun total _ => ?_
  dsimp only
  split
  · refine StopsWithin.bind ?_ fun _ _ => stopsWithin_ok _
    refine (spared_checkRange _).bind fun _ _ => ?_
    exact (s.spared_listLookups k f).bind fun _ _ => stopsWithin_ok _
  · exact stopsWithin_ok _

theorem spared_dropLookup (id : Int) : Spared (s.dropLookup k id) := by
  cases k with
  | direct d => exact (spared_require rfl).bind fun _ _ => stopsWithin_ok _
  | attached a => exact stopsWithin_ok _

theorem spared_amend (id : Int) (p : Patch Wide) : Spared (s.amend k id p) := by
  refine (spared_checkRange _).bind fun _ _ => ?_
  split
  · exact stopsWithin_ok _
  refine (spared_patch p).bind fun p _ => ?_
  dsimp only
  split
  · exact stopsWithin_ok _
  split
  · exact (s.spared_dropLookup k _).bind fun _ _ => stopsWithin_ok _
  · exact (s.spared_dropLookup k _).bind fun _ _ => stopsWithin_ok _

theorem spared_remove (id : Int) : Spared (s.remove k id) := by
  refine (spared_checkRange _).bind fun _ _ => ?_
  split
  · exact stopsWithin_ok _
  · refine (spared_require rfl).bind fun _ _ => ?_
    exact (s.spared_dropLookup _ _).bind fun _ _ => stopsWithin_ok _
  · exact (s.spared_dropLookup _ _).bind fun _ _ => stopsWithin_ok _

end Lookups

section Records

variable {s : Store} {F : Fault → Prop}

/-- References that exist are found. -/
theorem stopsWithin_assemble
    {id : String} {row : RecordRow}
    (h : ∀ d, (s.keys (.direct d)).contains (row.refs.get d) = true) :
    StopsWithin F (s.assemble id row) := by
  obtain ⟨a, ha⟩ := (s.isOk_assemble_iff id row).2 fun d _ => h d
  rw [ha]
  exact stopsWithin_ok a

theorem Sound.stopsWithin_load
    (h : s.Sound) (id : String) :
    StopsWithin F (s.loadRecord id) := by
  cases hrow : s.records.get? id with
  | none =>
      rw [loadRecord_of_none hrow]
      exact stopsWithin_ok none
  | some row =>
      rw [loadRecord_of_some hrow]
      exact (stopsWithin_assemble (h.refs id row hrow)).map some

/-- Records of a sound store are assembled. -/
theorem Sound.stopsWithin_assembleRow
    (h : s.Sound)
    {e : String × RecordRow}
    (he : e ∈ s.records.rows) :
    StopsWithin F (s.assemble e.1 e.2) :=
  stopsWithin_assemble (h.refs e.1 e.2 (s.records.mem_rows_iff.1 he))

theorem spared_matchingRecords (s : Store) (f : RecordFilter) :
    Spared (s.matchingRecords f) := by
  refine (spared_patternOf _).bind fun _ _ => ?_
  refine (spared_patternOf _).bind fun _ _ => ?_
  refine (spared_checkRange _).bind fun _ _ => ?_
  refine (spared_checkSearch _ _).bind fun _ _ => ?_
  refine (spared_checkSearch _ _).bind fun _ _ => ?_
  exact stopsWithin_ok _

/-- Matching records are records. -/
theorem mem_of_mem_matchingRecords
    {f : RecordFilter} {rows : List (String × RecordRow)} {e : String × RecordRow}
    (h : s.matchingRecords f = .ok rows)
    (he : e ∈ rows) :
    e ∈ s.records.rows := by
  rw [eq_of_matchingRecords h] at he
  exact (List.mem_filter.1 he).1

/-- What a row is found with are records. -/
theorem mem_of_mem_recordsWith
    {k : Kind} {i : Int} {e : String × RecordRow}
    (he : e ∈ s.recordsWith k i) :
    e ∈ s.records.rows := by
  cases k with
  | direct d => exact (List.mem_filter.1 he).1
  | attached a =>
      obtain ⟨e', he', hmem⟩ := List.mem_flatMap.1 he
      obtain ⟨_, _, rfl⟩ := List.mem_map.1 hmem
      exact he'

/-- A page of a list has rows of the list. -/
theorem mem_of_mem_inMemory
    {α : Type} {xs : List α} {q : PageRequest} {x : α}
    (h : x ∈ (Page.inMemory xs q).results) :
    x ∈ xs :=
  List.mem_of_mem_drop (List.mem_of_mem_take h)

theorem Sound.stopsWithin_page
    (h : s.Sound)
    {rows : List (String × RecordRow)} {q : PageRequest}
    (hrows : ∀ e ∈ rows, e ∈ s.records.rows) :
    StopsWithin F ((Page.inMemory rows q).mapM fun e => s.assemble e.1 e.2) :=
  StopsWithin.map
    (StopsWithin.mapM fun e he => h.stopsWithin_assembleRow (hrows e (mem_of_mem_inMemory he))) _

theorem Sound.spared_listRecords
    (h : s.Sound) (f : RecordFilter) :
    Spared (s.listRecords f) := by
  refine (s.spared_matchingRecords f).bind fun rows hrows => ?_
  exact StopsWithin.mapM fun e he =>
    h.stopsWithin_assembleRow (mem_of_mem_matchingRecords hrows he)

theorem Sound.spared_pageRecords
    (h : s.Sound) (f : RecordFilter) (q : PageRequest) :
    Spared (s.pageRecords f q) := by
  refine (s.spared_matchingRecords f).bind fun rows hrows => ?_
  exact h.stopsWithin_page fun e he => mem_of_mem_matchingRecords hrows he

theorem Sound.spared_recordsBy
    (h : s.Sound) (k : Kind) (id : Int) (q : PageRequest) :
    Spared (s.recordsBy k id q) := by
  refine (spared_checkRange _).bind fun _ _ => ?_
  exact h.stopsWithin_page fun _ => mem_of_mem_recordsWith

theorem spared_attach
    (s : Store) (id : String) (a : AttachedKind) (refs : List AttachedRef) :
    Spared (s.attach id a refs) := by
  refine StopsWithin.foldlM (fun r _ t => ?_) s
  refine StopsWithin.bind ?_ fun _ _ => ?_
  · refine (spared_checkRange _).bind fun _ _ => ?_
    exact (spared_require rfl).bind fun _ _ => stopsWithin_ok _
  · exact (spared_require rfl).bind fun _ _ => stopsWithin_ok _

theorem spared_insertLinks (s : Store) (id : String) (links : List LinkDraft) :
    Spared (s.insertLinks id links) := by
  refine (StopsWithin.mapM fun l _ => spared_link id l).bind fun _ _ => ?_
  exact stopsWithin_ok _

theorem spared_createRecord
    (s : Store) (today : Date) (id : String) (d : RecordDraft) :
    Spared (s.createRecord today id d) := by
  cases hid : s.records.contains id with
  | true =>
      rw [createRecord_of_contains hid]
      exact stopsWithin_ok s
  | false =>
      rw [createRecord_of_not_contains hid]
      refine (spared_draft today d).bind fun row _ => ?_
      refine (spared_require rfl).bind fun _ _ => ?_
      refine (spared_attach _ id .idol _).bind fun _ _ => ?_
      refine (spared_insertLinks _ id _).bind fun _ _ => ?_
      exact spared_attach _ id .genre _

/-- A revision is read back at once: references that were not checked are those that the
record had before. -/
theorem Sound.spared_reviseRecord
    (h : s.Sound) (today : Date) (id : String) (r : RecordRevision) :
    Spared (s.reviseRecord today id r) := by
  cases hold : s.records.get? id with
  | none =>
      rw [reviseRecord_of_none hold]
      exact stopsWithin_ok _
  | some old =>
      rw [reviseRecord_of_some hold]
      refine (spared_revision today old r).bind fun row hrow => ?_
      refine (spared_require rfl).bind fun _ hresolves => ?_
      refine (spared_attach _ id .idol _).bind fun t₁ h₁ => ?_
      refine (spared_attach _ id .genre _).bind fun t₂ h₂ => ?_
      refine (stopsWithin_assemble fun d => ?_).bind fun _ _ => stopsWithin_ok _
      rw [keys_of_attach h₂, keys_of_attach h₁, refs_of_toStorable_revision hrow]
      rcases require_eq_ok_iff.1 hresolves d (DirectKind.mem_all d) with heq | hfound
      · rw [heq]
        simpa using h.refs id old hold d
      · exact hfound

theorem spared_addLinks
    (s : Store) (today : Date) (id : String) (links : List LinkDraft) :
    Spared (s.addLinks today id links) := by
  cases hold : s.records.get? id with
  | none =>
      rw [addLinks_of_none hold]
      exact stopsWithin_ok _
  | some old =>
      rw [addLinks_of_some hold]
      split
      · exact stopsWithin_ok _
      · exact (spared_insertLinks _ id _).map _

theorem Sound.spared_submit
    (h : s.Sound) (today : Date) (id : String) (sub : Submission) :
    Spared (s.submit today id sub) := by
  cases hid : s.records.contains id with
  | true =>
      rw [submit_of_contains hid]
      exact (h.stopsWithin_load id).map _
  | false =>
      rw [submit_of_not_contains hid]
      refine (spared_directRows _).bind fun direct _ => ?_
      refine (spared_attachedRows _).bind fun genres _ => ?_
      refine (spared_attachedRows _).bind fun idols _ => ?_
      refine (spared_createRecord _ today id _).bind fun t ht => ?_
      have hedits := (s.edits_enrolments direct genres idols).trans (edits_of_createRecord ht)
      exact ((h.of_edits hedits).stopsWithin_load id).bind fun _ _ => stopsWithin_ok _

theorem Sound.spared_resubmit
    (h : s.Sound) (today : Date) (id : String) (sub : Resubmission) :
    Spared (s.resubmit today id sub) := by
  cases hid : s.records.contains id with
  | true =>
      rw [resubmit_of_contains hid]
      refine (spared_directRows _).bind fun direct _ => ?_
      refine (StopsWithin.option_mapM fun rows _ => spared_attachedRows rows).bind
        fun genres? _ => ?_
      refine (StopsWithin.option_mapM fun rows _ => spared_attachedRows rows).bind
        fun idols? _ => ?_
      exact (h.of_edits (s.edits_enrolments? direct genres? idols?)).spared_reviseRecord today id _
  | false =>
      rw [resubmit_of_not_contains hid]
      exact stopsWithin_ok _

end Records

/-- No operation on a sound store finds a broken reference. -/
theorem Sound.spared_run
    {s : Store} (h : s.Sound) (today : Date) (op : Operation) :
    Spared (op.run today s) := by
  cases op with
  | findLookup k id => exact (s.spared_findLookup k id).map _
  | allLookups k | recordCounts k | recordIds => exact stopsWithin_ok _
  | listLookups k f => exact (s.spared_listLookups k f).map _
  | pageLookups k f q => exact (s.spared_pageLookups k f q).map _
  | enrol k c => exact (spared_candidate c).map _
  | amend k id p => exact (s.spared_amend k id p).map _
  | remove k id => exact (s.spared_remove k id).map _
  | loadRecord id =>
      refine (spared_toStorable id).bind fun id _ => ?_
      exact (h.stopsWithin_load id).bind fun _ _ => stopsWithin_ok _
  | hasRecord id => exact (spared_toStorable id).map _
  | listRecords f => exact (h.spared_listRecords f).map _
  | pageRecords f q => exact (h.spared_pageRecords f q).map _
  | recordsBy k id q => exact (h.spared_recordsBy k id q).map _
  | createRecord id d =>
      refine (spared_toStorable id).bind fun id _ => ?_
      exact (s.spared_createRecord today id d).bind fun _ _ => stopsWithin_ok _
  | reviseRecord id r =>
      refine (spared_toStorable id).bind fun id _ => ?_
      exact (h.spared_reviseRecord today id r).bind fun _ _ => stopsWithin_ok _
  | addLinks id links =>
      refine (spared_toStorable id).bind fun id _ => ?_
      exact (s.spared_addLinks today id links).bind fun _ _ => stopsWithin_ok _
  | deleteRecord id => exact (spared_toStorable id).map _
  | submit id sub =>
      refine (spared_toStorable id).bind fun id _ => ?_
      exact (h.spared_submit today id sub).bind fun _ _ => stopsWithin_ok _
  | resubmit id sub =>
      refine (spared_toStorable id).bind fun id _ => ?_
      exact (h.spared_resubmit today id sub).bind fun _ _ => stopsWithin_ok _

/-- A fresh store is sound after every run, and then no operation finds a broken
reference. -/
theorem sound_after_and_never_broken (steps : List (Date × Operation)) :
    (seeded.after steps).Sound ∧
      ∀ today op record kind missing,
        Operation.run today op (seeded.after steps) ≠
          .error (.brokenReference record kind missing) := by
  have h := sound_after steps
  refine ⟨h, ?_⟩
  intro today op record kind missing hrun
  have := h.spared_run today op _ hrun
  cases this

end Store
end CardCatalog
