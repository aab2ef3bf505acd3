import CardCatalog.Proofs.BrokenReferences
import CardCatalog.Proofs.Pages
import CardCatalog.Proofs.Searching
import CardCatalog.Proofs.ServiceFaults

/-!
# Stopping to protect a row

An unknown row is never removed, and an operation that would remove it stops.  On a sound store
there is nothing else at which an operation has to stop that a request asks for: texts are free
of halves, integers are in range, patterns are short, and rows find room.  A page starts at its
offset or before, a row that another one takes the place of is not the unknown one, and records
find the rows that they point at.

Results: an operation that has been formed, passes its checks, searches with short patterns and
finds room stops only to protect an unknown row (`Sound.protective_run`).
-/

namespace CardCatalog

open Calendar (Date)
open Text (Wide)

section Passing

theorem text?_ne_none_of_fault?
    {w : Wide}
    (h : (Check.text w).fault? = none) :
    w.text? ≠ none := by
  intro hw
  rw [Check.fault?, if_pos hw] at h
  cases h

theorem inRange_of_fault?
    {n : Int}
    (h : (Check.integer n).fault? = none) :
    Number.InRange n := by
  by_contra hn
  rw [Check.fault?, if_neg hn] at h
  cases h

/-- Checks that pass have no fault among them. -/
theorem firstFault?_ne_some
    {cs : List Check}
    (pass : ∀ c ∈ cs, c.fault? = none) (e : Fault) :
    firstFault? cs ≠ some e := by
  rw [firstFault?_eq_none_iff.2 pass]
  nofun

end Passing

namespace PageRequest

/-- What a page starts with and how many rows it has lies in the stored range, if this holds of
what is asked for: a page starts at its offset or before. -/
theorem inRange_of_window
    {w : Window}
    (q : PageRequest)
    (pass : ∀ c ∈ q.checks, c.fault? = none)
    (positive : 1 ≤ q.defaultLimit) (range : Number.InRange q.defaultLimit)
    (h : q.window = .ok w) :
    ∀ n ∈ [w.rowOffset, w.limit], Number.InRange n := by
  have hasked (n : Int) (hn : n ∈ q.limit?.toList ++ q.offset?.toList) : Number.InRange n :=
    inRange_of_fault? (pass _ (List.mem_map.2 ⟨n, hn, rfl⟩))
  have hlimit : Number.InRange q.effectiveLimit := by
    unfold effectiveLimit
    split
    · rename_i l hl
      split
      · exact range
      · exact hasked l (by simp [hl])
    · exact range
  have hoffset : Number.InRange q.effectiveOffset := by
    unfold effectiveOffset
    split
    · rename_i o ho
      split
      · decide
      · exact hasked o (by simp [ho])
    · decide
  have hpos := q.effectiveLimit_pos positive
  have hnonneg := q.effectiveOffset_nonneg
  unfold window at h
  dsimp only at h
  rw [if_neg (by omega)] at h
  cases h
  intro n hn
  rcases List.mem_cons.1 hn with rfl | hn
  · show Number.InRange (q.effectiveOffset.fdiv q.effectiveLimit * q.effectiveLimit)
    rw [Int.fdiv_eq_ediv_of_nonneg _ (by omega)]
    have hle := Int.ediv_mul_le q.effectiveOffset (b := q.effectiveLimit) (by omega)
    have hge := Int.mul_nonneg (Int.ediv_nonneg hnonneg (b := q.effectiveLimit) (by omega))
      (by omega : 0 ≤ q.effectiveLimit)
    obtain ⟨_, hmost⟩ := hoffset
    constructor <;> omega
  · cases List.mem_singleton.1 hn
    exact hlimit

end PageRequest

section Searching

/-- The parts that an operation searches for. -/
def Operation.criteria : Operation → List Wide
  | .listLookups _ f | .pageLookups _ f _ => f.name?.toList ++ f.link?.toList
  | .listRecords f | .pageRecords f _ => f.id?.toList ++ f.title?.toList
  | _ => []

/-- Whether a fault is that an unknown row is protected. -/
def Fault.IsProtection : Fault → Prop
  | .protectedRow .. => True
  | _ => False

/-- A computation that stops to protect an unknown row, or not at all. -/
abbrev Protective {α : Type} (x : Except Fault α) : Prop :=
  StopsWithin Fault.IsProtection x

variable {α : Type} {x : Except Fault α} {cs : List Check}

/-- What stops at checks does not stop if all of them pass. -/
theorem StopsAt.protective
    (h : StopsAt cs x) (pass : ∀ c ∈ cs, c.fault? = none) :
    Protective x := by
  intro e he
  exact absurd ((h e).1 he) (firstFault?_ne_some pass e)

theorem protective_checkRange
    {ns : List Int}
    (h : ∀ n ∈ ns, Number.InRange n) :
    Protective (checkRange ns) := by
  intro e he
  obtain ⟨⟨n, hn, hrange⟩, _⟩ := checkRange_eq_error_iff.1 he
  exact absurd (h n hn) hrange

/-- Two criteria can be searched for if they pass their checks and have short patterns. -/
theorem isSearchable_of_pass
    {v? w? : Option Wide}
    (pass : ∀ c ∈ (v?.toList ++ w?.toList).map Check.text, c.fault? = none)
    (short : ∀ w ∈ v?.toList ++ w?.toList, w.HasShortPattern) :
    IsSearchable v? ∧ IsSearchable w? := by
  have hboth (w : Wide) (hw : w ∈ v?.toList ++ w?.toList) :
      w.text? ≠ none ∧ w.HasShortPattern :=
    ⟨text?_ne_none_of_fault? (pass _ (List.mem_map.2 ⟨w, hw, rfl⟩)), short w hw⟩
  constructor
  · exact fun w hw => hboth w (List.mem_append_left _ (Option.mem_toList.2 hw))
  · exact fun w hw => hboth w (List.mem_append_right _ (Option.mem_toList.2 hw))

theorem LookupFilter.isSearchable_of_pass
    {f : LookupFilter}
    (pass : ∀ c ∈ f.checks, c.fault? = none)
    (short : ∀ w ∈ f.name?.toList ++ f.link?.toList, w.HasShortPattern) :
    f.IsSearchable := by
  obtain ⟨hids, htexts⟩ := List.forall_mem_append.1 pass
  obtain ⟨hname, hlink⟩ := CardCatalog.isSearchable_of_pass htexts short
  exact
    ⟨fun n hn => inRange_of_fault? (hids _ (List.mem_map.2 ⟨n, Option.mem_toList.2 hn, rfl⟩)),
      hname, hlink⟩

theorem RecordFilter.isSearchable_of_pass
    {f : RecordFilter}
    (pass : ∀ c ∈ f.checks, c.fault? = none)
    (short : ∀ w ∈ f.id?.toList ++ f.title?.toList, w.HasShortPattern) :
    f.IsSearchable := by
  obtain ⟨htexts, hrefs⟩ := List.forall_mem_append.1 pass
  obtain ⟨hid, htitle⟩ := CardCatalog.isSearchable_of_pass htexts short
  refine ⟨hid, htitle, fun d n hn => inRange_of_fault? (hrefs _ (List.mem_map.2 ⟨n, ?_, rfl⟩))⟩
  exact List.mem_filterMap.2 ⟨d, d.mem_all, hn⟩

end Searching

namespace Store

section Lookups

variable {s : Store} {k : Kind}

theorem protective_listLookups
    {f : LookupFilter}
    (pass : ∀ c ∈ f.checks, c.fault? = none)
    (short : ∀ w ∈ f.name?.toList ++ f.link?.toList, w.HasShortPattern) :
    Protective (s.listLookups k f) := by
  rw [s.listLookups_eq k (f.isSearchable_of_pass pass short)]
  exact stopsWithin_ok _

/-- The place of a page lies in the stored range if what is asked for does. -/
theorem protective_pageLookups
    {f : LookupFilter} {q : PageRequest}
    (pass : ∀ c ∈ f.checks ++ q.checks, c.fault? = none)
    (short : ∀ w ∈ f.name?.toList ++ f.link?.toList, w.HasShortPattern)
    (positive : 1 ≤ q.defaultLimit) (range : Number.InRange q.defaultLimit) :
    Protective (s.pageLookups k f q) := by
  obtain ⟨hf, hq⟩ := List.forall_mem_append.1 pass
  have hlist := protective_listLookups (s := s) (k := k) hf short
  have hlimit := q.effectiveLimit_pos positive
  refine StopsWithin.bind ?_ fun w hw => ?_
  · intro e he
    unfold PageRequest.window at he
    dsimp only at he
    rw [if_neg (by omega)] at he
    cases he
  refine (hlist.map _).bind fun total _ => ?_
  dsimp only
  split
  · refine StopsWithin.bind ?_ fun _ _ => stopsWithin_ok _
    refine (protective_checkRange (q.inRange_of_window hq positive range hw)).bind fun _ _ => ?_
    exact hlist.bind fun _ _ => stopsWithin_ok _
  · exact stopsWithin_ok _

/-- A row is dropped that is not an unknown one, as the unknown row is there. -/
theorem Sound.protective_dropLookup
    {id : Int}
    (h : s.Sound) (exposed : isProtected k id = false) :
    Protective (s.dropLookup k id) := by
  rw [h.dropLookup_eq exposed]
  exact stopsWithin_ok _

theorem Sound.protective_amend
    {id : Int} {p : Patch Wide}
    (h : s.Sound) (pass : ∀ c ∈ Check.integer id :: p.checks, c.fault? = none) :
    Protective (s.amend k id p) := by
  obtain ⟨hid, hp⟩ := List.forall_mem_cons.1 pass
  refine ((stopsAt_checkRange [id]).protective (by simpa using hid)).bind fun _ _ => ?_
  split
  · exact stopsWithin_ok _
  refine ((stopsAt_patch p).protective hp).bind fun p _ => ?_
  dsimp only
  split
  · exact stopsWithin_ok _
  rename_i other hother
  split
  · rename_i safe
    -- the other row is not the unknown one, which is being amended
    have hne : other.id ≠ id :=
      fun e => (get?_of_holder?_eq_some hother).2.2 (congrArg some e)
    exact (h.protective_dropLookup (isProtected_eq_false_of_ne safe hne)).bind
      fun _ _ => stopsWithin_ok _
  · rename_i exposed
    exact (h.protective_dropLookup (by simpa using exposed)).bind fun _ _ => stopsWithin_ok _

theorem Sound.protective_remove
    {id : Int}
    (h : s.Sound) (pass : (Check.integer id).fault? = none) :
    Protective (s.remove k id) := by
  refine ((stopsAt_checkRange [id]).protective (by simpa using pass)).bind fun _ _ => ?_
  split
  · exact stopsWithin_ok _
  · rename_i d _
    refine StopsWithin.bind (stopsWithin_require trivial) fun _ hid => ?_
    have hexposed : isProtected (.direct d) id = false :=
      decide_eq_false (require_eq_ok_iff.1 hid)
    exact (h.protective_dropLookup hexposed).bind fun _ _ => stopsWithin_ok _
  · exact (h.protective_dropLookup rfl).bind fun _ _ => stopsWithin_ok _

end Lookups

section Records

variable {s : Store}

theorem protective_matchingRecords
    {f : RecordFilter}
    (pass : ∀ c ∈ f.checks, c.fault? = none)
    (short : ∀ w ∈ f.id?.toList ++ f.title?.toList, w.HasShortPattern) :
    Protective (s.matchingRecords f) := by
  rw [s.matchingRecords_eq (f.isSearchable_of_pass pass short)]
  exact stopsWithin_ok _

end Records

/-- On a sound store with room for what an operation names, the operation stops only to protect
an unknown row, if it has been formed, its checks pass, and it searches with short patterns. -/
theorem Sound.protective_run
    {s : Store} {settings : Settings} {op : Operation}
    (h : s.Sound) (numbered : s.Numbered)
    (default : Number.InRange settings.pagination.defaultLimit)
    (formed : op.IsFormed settings)
    (room : s.HasRoom op.mentions)
    (pass : ∀ c ∈ op.checks, c.fault? = none)
    (short : ∀ w ∈ op.criteria, w.HasShortPattern) (today : Date) :
    Protective (op.run today s) := by
  cases op with
  | findLookup k i =>
      refine StopsWithin.map (StopsWithin.bind ?_ fun _ _ => stopsWithin_ok _) _
      exact (stopsAt_checkRange [i]).protective pass
  | allLookups | recordCounts | recordIds => exact stopsWithin_ok _
  | listLookups k f => exact (protective_listLookups pass short).map _
  | pageLookups k f q =>
      have hdefault : q.defaultLimit = settings.pagination.defaultLimit := formed
      have hpositive := settings.pagination.defaultLimit.property
      rw [← hdefault] at default hpositive
      exact (protective_pageLookups pass short hpositive default).map _
  | enrol k c => exact ((stopsAt_candidate c).protective pass).map _
  | amend k i p => exact (h.protective_amend pass).map _
  | remove k i => exact (h.protective_remove (pass _ (by simp [Operation.checks]))).map _
  | loadRecord w =>
      refine ((stopsAt_text w).protective pass).bind fun id _ => ?_
      exact (h.stopsWithin_load id).bind fun _ _ => stopsWithin_ok _
  | hasRecord w | deleteRecord w => exact ((stopsAt_text w).protective pass).map _
  | listRecords f =>
      refine StopsWithin.map ?_ _
      refine (protective_matchingRecords pass short).bind fun rows hrows => ?_
      exact StopsWithin.mapM fun e he =>
        h.stopsWithin_assembleRow (mem_of_mem_matchingRecords hrows he)
  | pageRecords f q =>
      have hpass := (List.forall_mem_append.1 pass).1
      refine StopsWithin.map ?_ _
      refine (protective_matchingRecords hpass short).bind fun rows hrows => ?_
      exact h.stopsWithin_page fun e he => mem_of_mem_matchingRecords hrows he
  | recordsBy k i q =>
      have hpass := (List.forall_mem_cons.1 pass).1
      refine StopsWithin.map (StopsWithin.bind ?_ fun _ _ => ?_) _
      · exact (stopsAt_checkRange [i]).protective (by simpa using hpass)
      · exact h.stopsWithin_page fun _ => mem_of_mem_recordsWith
  | createRecord | reviseRecord => exact formed.elim
  | addLinks w links =>
      intro e he
      obtain ⟨hid, hlinks⟩ := List.forall_mem_cons.1 pass
      -- of the links, only those are checked that are new to the record
      have hfresh (id : String) :
          ∀ c ∈ (s.freshLinks id links).flatMap LinkDraft.checks, c.fault? = none := by
        intro c hc
        obtain ⟨l, hl, hc⟩ := List.mem_flatMap.1 hc
        exact hlinks c (List.mem_flatMap.2 ⟨l, (freshBy_sublist _ _ _).subset hl, hc⟩)
      rcases (run_addLinks_eq_error_iff formed w e).1 he with he | ⟨id, _, _, he⟩
      · exact absurd he (firstFault?_ne_some (by simpa using hid) e)
      · exact absurd he (firstFault?_ne_some (hfresh id) e)
  | submit w sub =>
      intro e he
      obtain ⟨htext, _, numbers⟩ := formed
      have hfault := ((run_submit_eq_error_iff h numbered room htext numbers e).1 he).2
      exact absurd hfault (firstFault?_ne_some (List.forall_mem_cons.1 pass).2 e)
  | resubmit w sub =>
      intro e he
      obtain ⟨hid, hsub⟩ := List.forall_mem_cons.1 pass
      rcases (run_resubmit_eq_error_iff h numbered room w e).1 he with he | ⟨_, he⟩
      · exact absurd he (firstFault?_ne_some (by simpa using hid) e)
      · exact absurd he (firstFault?_ne_some hsub e)

end Store

end CardCatalog
