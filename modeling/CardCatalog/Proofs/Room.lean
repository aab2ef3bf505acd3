import CardCatalog.Proofs.Enrolment
import Mathlib.Algebra.GroupWithZero.Nat

/-!
# Room for ids

Ids of reference rows are positive, and the next one is larger than all others.  It grows by
one at most for every row that an operation names, and does not grow otherwise; so ids stay in
the stored range until about `2 ^ 63` rows have been named.

Results: ids are positive (`numbered_after`), ids that are given out are in the stored range
as long as there is room (`Numbered.inRange`), and there is room after a run that names few
rows (`hasRoom_after`).
-/

namespace CardCatalog

open Calendar (Date)
open Text (Wide)

section Mentions

/-- How many rows of each kind are named for a record. -/
def mentioned
    (direct : PerDirect (Option (Candidate Wide)))
    (attached : PerAttached (List (AttachedCandidate Wide))) : Kind → Nat
  | .direct d => (direct.get d).toList.length
  | .attached a => (attached.get a).length

/-- How many rows of each kind a submission names. -/
def Submission.mentions (sub : Submission) : Kind → Nat :=
  mentioned sub.direct sub.attached

/-- How many rows of each kind a resubmission names. -/
def Resubmission.mentions (sub : Resubmission) : Kind → Nat :=
  mentioned sub.direct ⟨sub.attached.genre.getD [], sub.attached.idol.getD []⟩

/-- How many rows of each kind an operation names, that may have to be added. -/
def Operation.mentions : Operation → Kind → Nat
  | .enrol k _, k' => if k' = k then 1 else 0
  | .submit _ sub, k => sub.mentions k
  | .resubmit _ sub, k => sub.mentions k
  | _, _ => 0

theorem storableDirect_eq_ok_iff
    {direct : PerDirect (Option (Candidate Wide))} {out : PerDirect (Option (Candidate String))} :
    storableDirect direct = .ok out ↔
      ∀ d, (direct.get d).mapM Candidate.toStorable = .ok (out.get d) := by
  unfold storableDirect
  simp only [bind_eq_ok_iff, pure, Except.pure, Except.ok.injEq]
  constructor
  · rintro ⟨_, h₁, _, h₂, _, h₃, _, h₄, rfl⟩ d
    cases d
    · exact h₁
    · exact h₂
    · exact h₃
    · exact h₄
  · intro h
    exact ⟨_, h .director, _, h .studio, _, h .label, _, h .series, rfl⟩

/-- As many keys are named as rows. -/
theorem length_namedKeys
    {direct : PerDirect (Option (Candidate Wide))}
    {attached : PerAttached (List (AttachedCandidate Wide))}
    {direct' : PerDirect (Option (Candidate String))}
    {attached' : PerAttached (List (AttachedCandidate String))}
    (hdirect : storableDirect direct = .ok direct')
    (hattached : ∀ a, storableRows (attached.get a) = .ok (attached'.get a))
    (k : Kind) :
    (namedKeys direct' attached' k).length = mentioned direct attached k := by
  cases k with
  | direct d =>
      have hd := storableDirect_eq_ok_iff.1 hdirect d
      show ((direct'.get d).toList.map Candidate.key).length = (direct.get d).toList.length
      rw [List.length_map]
      cases hc : direct.get d with
      | none =>
          rw [hc] at hd
          rw [← Except.ok.inj hd]
          rfl
      | some c =>
          rw [hc] at hd
          obtain ⟨c', _, hd⟩ := map_eq_ok_iff.1 hd
          rw [← hd]
          rfl
  | attached a =>
      show ((attached'.get a).map fun x => x.row.key).length = (attached.get a).length
      rw [List.length_map]
      exact length_of_mapM_eq_ok (hattached a)

/-- Rows that are not given are stored as none. -/
theorem storableRows_getD
    {rows? : Option (List (AttachedCandidate Wide))}
    {out? : Option (List (AttachedCandidate String))}
    (h : rows?.mapM storableRows = .ok out?) :
    storableRows (rows?.getD []) = .ok (out?.getD []) := by
  cases rows? with
  | none =>
      rw [← Except.ok.inj h]
      rfl
  | some rows =>
      obtain ⟨out, hout, h⟩ := map_eq_ok_iff.1 h
      rw [← h]
      exact hout

end Mentions

namespace Store

section Numbered

/-- The ids of reference rows are positive. -/
def Numbered (s : Store) : Prop :=
  ∀ k, ∀ e ∈ (s.keys k).rows, 1 ≤ e.1

variable {s s' : Store}

theorem Numbered.one_le_nextId
    (h : s.Numbered) (k : Kind) :
    1 ≤ (s.keys k).nextId := by
  rcases (s.keys k).nextId_eq_one_or with hone | ⟨e, he, hnext⟩
  · omega
  · have := h k e he
    omega

theorem numbered_of_edit
    (h : Edit s s')
    (hs : s.Numbered) :
    s'.Numbered := by
  intro k
  -- a kind whose rows all stood there before has positive ids
  have hsub (hrows : ∀ e ∈ (s'.keys k).rows, e ∈ (s.keys k).rows) :
      ∀ e ∈ (s'.keys k).rows, 1 ≤ e.1 :=
    fun e he => hs k e (hrows e he)
  cases h with
  | add k' key free =>
      by_cases hk : k = k'
      · subst hk
        intro e he
        simp only [keys_setKeys, if_true, Table.rows_push, List.mem_append,
          List.mem_singleton] at he
        rcases he with he | rfl
        · exact hs k e he
        · exact hs.one_le_nextId k
      · exact hsub (by simp [hk])
  | rename k' id key found free =>
      by_cases hk : k = k'
      · subst hk
        intro e he
        simp only [keys_setKeys, if_true, Table.mem_rows_put] at he
        rcases he with rfl | ⟨_, he⟩
        · obtain ⟨old, hold⟩ := (s.keys k).contains_iff.1 found
          exact hs k (id, old) ((s.keys k).mem_rows_iff.2 hold)
        · exact hs k e he
      · exact hsub (by simp [hk])
  | remove k' id safe =>
      refine hsub fun e he => ?_
      rw [keys_without] at he
      split at he
      · rename_i hk
        subst hk
        exact (List.mem_filter.1 he).1
      · exact he
  | absorb d id key unknown found other =>
      by_cases hk : k = .direct d
      · subst hk
        intro e he
        simp only [keys_setKeys, if_true, Table.mem_rows_put] at he
        rcases he with rfl | ⟨_, he⟩
        · exact Int.le_refl 1
        · exact hs (.direct d) e (List.mem_filter.1 he).1
      · exact hsub (by simp [hk])
  | write id row resolves => exact hs k
  | attach a x owner target free => exact hs k
  | detach a id => exact hs k
  | link l owner => exact hs k
  | delete id => exact hs k

theorem numbered_seeded : seeded.Numbered := by
  unfold Numbered
  decide

theorem numbered_after (steps : List (Date × Operation)) :
    (seeded.after steps).Numbered :=
  after_invariant (fun _ _ h => numbered_of_edit h) numbered_seeded steps

end Numbered

section Room

/-- So many rows of each kind can be added before their ids leave the stored range. -/
def HasRoom (s : Store) (more : Kind → Nat) : Prop :=
  ∀ k, (s.keys k).nextId + more k ≤ 0x8000000000000000

instance (s : Store) (more : Kind → Nat) : Decidable (s.HasRoom more) :=
  inferInstanceAs (Decidable (∀ k, (s.keys k).nextId + more k ≤ 0x8000000000000000))

variable {s s' : Store}

/-- Less room is needed for fewer rows. -/
theorem HasRoom.mono
    {more less : Kind → Nat}
    (h : s.HasRoom more)
    (hle : ∀ k, less k ≤ more k) :
    s.HasRoom less := by
  intro k
  have hk := h k
  have := hle k
  omega

/-- The ids that are given out lie in the stored range, as long as the next one has room. -/
theorem Numbered.inRange
    (h : s.Numbered)
    {k : Kind} {id : Int}
    (room : (s.keys k).nextId ≤ 0x8000000000000000)
    (found : (s.keys k).contains id = true) :
    Number.InRange id := by
  obtain ⟨key, hid⟩ := (s.keys k).contains_iff.1 found
  have hmem := (s.keys k).get?_eq_some_iff.1 hid
  have hpos : 1 ≤ id := h k (id, key) hmem
  have hlt : id < (s.keys k).nextId := Table.lt_nextId_of_contains found
  unfold Number.InRange
  omega

end Room

section Growth

variable {s s' : Store} {k : Kind} {id : String} {today : Date}

/-- The next id does not grow if no row is added. -/
theorem Numbered.nextId_le_of_contains
    (h : s.Numbered)
    (rows : ∀ i, (s'.keys k).contains i = true → (s.keys k).contains i = true) :
    (s'.keys k).nextId ≤ (s.keys k).nextId := by
  rcases (s'.keys k).nextId_eq_one_or with hone | ⟨e, he, hnext⟩
  · have := h.one_le_nextId k
    omega
  · have hlt := Table.lt_nextId_of_contains (rows e.1 (Table.contains_of_mem he))
    omega

/-- Taking a row away adds none. -/
theorem contains_of_dropLookup
    {k' : Kind} {i j : Int}
    (h : s.dropLookup k i = .ok s')
    (hj : (s'.keys k').contains j = true) :
    (s.keys k').contains j = true := by
  obtain ⟨_, rfl⟩ := (s.dropLookup_eq_ok_iff k i).1 h
  rw [keys_without] at hj
  split at hj
  · rename_i hk
    subst hk
    rw [Table.contains_erase, Bool.and_eq_true] at hj
    exact hj.2
  · exact hj

/-- Amending adds no row. -/
theorem contains_of_amend
    {i j : Int} {p : Patch Wide} {row? : Option Lookup} {k' : Kind}
    (h : s.amend k i p = .ok (row?, s'))
    (hj : (s'.keys k').contains j = true) :
    (s.keys k').contains j = true := by
  -- a row is put in place of the patched one
  have hput {t : Store} {key : NaturalKey String}
      (found : (s.keys k).contains i = true)
      (kept : ∀ k' j, (t.keys k').contains j = true → (s.keys k').contains j = true)
      (hj : ((t.setKeys k ((t.keys k).put i key)).keys k').contains j = true) :
      (s.keys k').contains j = true := by
    rw [keys_setKeys] at hj
    split at hj
    · rename_i hk
      subst hk
      rw [Table.contains_put, Bool.or_eq_true, decide_eq_true_eq] at hj
      rcases hj with rfl | hj
      · exact found
      · exact kept k' j hj
    · exact kept k' j hj
  have hfound {row : Lookup} (found : s.lookup? k i = some row) :
      (s.keys k).contains i = true :=
    (s.keys k).contains_iff.2 ⟨_, (lookup?_eq_some_iff.1 found).1⟩
  cases amended_of_amend h with
  | absent _ => exact hj
  | renamed found _ _ => exact hput (hfound found) (fun _ _ hj => hj) hj
  | absorbed found _ _ _ dropped =>
      exact hput (hfound found) (fun _ _ => contains_of_dropLookup dropped) hj
  | yielded _ _ _ _ dropped => exact contains_of_dropLookup dropped hj

/-- Removing adds no row. -/
theorem contains_of_remove
    {i j : Int} {b : Bool} {k' : Kind}
    (h : s.remove k i = .ok (b, s'))
    (hj : (s'.keys k').contains j = true) :
    (s.keys k').contains j = true := by
  cases removed_of_remove h with
  | absent _ => exact hj
  | gone _ _ dropped => exact contains_of_dropLookup dropped hj

theorem keys_of_insertLinks
    {links : List LinkDraft}
    (h : s.insertLinks id links = .ok s') (k : Kind) :
    s'.keys k = s.keys k := by
  obtain ⟨_, _, h⟩ := bind_eq_ok_iff.1 h
  cases h
  rfl

/-- Creating a record leaves all reference rows as they are. -/
theorem keys_of_createRecord
    {d : RecordDraft}
    (h : s.createRecord today id d = .ok s') (k : Kind) :
    s'.keys k = s.keys k := by
  cases hid : s.records.contains id with
  | true =>
      rw [createRecord_of_contains hid] at h
      cases h
      rfl
  | false =>
      rw [createRecord_of_not_contains hid] at h
      obtain ⟨_, _, h⟩ := bind_eq_ok_iff.1 h
      obtain ⟨_, _, h⟩ := bind_eq_ok_iff.1 h
      obtain ⟨t₁, h₁, h⟩ := bind_eq_ok_iff.1 h
      obtain ⟨t₂, h₂, h₃⟩ := bind_eq_ok_iff.1 h
      rw [keys_of_attach h₃, keys_of_insertLinks h₂, keys_of_attach h₁]
      rfl

/-- Revising a record leaves all reference rows as they are. -/
theorem keys_of_reviseRecord
    {r : RecordRevision} {found? : Option Aggregate}
    (h : s.reviseRecord today id r = .ok (found?, s')) (k : Kind) :
    s'.keys k = s.keys k := by
  cases hold : s.records.get? id with
  | none =>
      rw [reviseRecord_of_none hold] at h
      cases h
      rfl
  | some old =>
      rw [reviseRecord_of_some hold] at h
      obtain ⟨_, _, h⟩ := bind_eq_ok_iff.1 h
      obtain ⟨_, _, h⟩ := bind_eq_ok_iff.1 h
      obtain ⟨t₁, h₁, h⟩ := bind_eq_ok_iff.1 h
      obtain ⟨t₂, h₂, h⟩ := bind_eq_ok_iff.1 h
      obtain ⟨_, _, h⟩ := bind_eq_ok_iff.1 h
      cases h
      rw [keys_of_attach h₂, keys_of_attach h₁, keys_records, keys_clearGiven]

/-- Adding links leaves all reference rows as they are. -/
theorem keys_of_addLinks
    {links : List LinkDraft} {count? : Option Nat}
    (h : s.addLinks today id links = .ok (count?, s')) (k : Kind) :
    s'.keys k = s.keys k := by
  obtain ⟨_, _, rfl⟩ | ⟨_, rows, _, _, _, rfl⟩ := linked_of_addLinks h
  · rfl
  · cases rows <;> rfl

theorem keys_deleteRecord (s : Store) (id : String) (k : Kind) :
    (s.deleteRecord id).2.keys k = s.keys k := by
  unfold deleteRecord
  split <;> rfl

/-- The next ids grow by the rows at most that are named for a record. -/
theorem nextId_enrolNamed_le
    {direct : PerDirect (Option (Candidate Wide))}
    {attached : PerAttached (List (AttachedCandidate Wide))}
    {direct' : PerDirect (Option (Candidate String))}
    {attached' : PerAttached (List (AttachedCandidate String))}
    (hdirect : storableDirect direct = .ok direct')
    (hattached : ∀ a, storableRows (attached.get a) = .ok (attached'.get a))
    (s : Store) (k : Kind) :
    ((s.enrolNamed (namedKeys direct' attached')).keys k).nextId
      ≤ (s.keys k).nextId + mentioned direct attached k := by
  have hle := (s.keys k).nextId_enrolAll_le (namedKeys direct' attached' k)
  have hlength := length_namedKeys hdirect hattached k
  rw [keys_enrolNamed]
  omega

/-- A submission that answers changes nothing, or enrols the keys that it names. -/
theorem enrolled_of_submit
    {sub : Submission} {found? : Option Aggregate}
    (h : s.submit today id sub = .ok (found?, s')) :
    s' = s ∨ ∃ direct attached,
      storableDirect sub.direct = .ok direct ∧
      (∀ a, storableRows (sub.attached.get a) = .ok (attached.get a)) ∧
      ∀ k, s'.keys k = (s.keys k).enrolAll (namedKeys direct attached k) := by
  cases hid : s.records.contains id with
  | true =>
      rw [submit_of_contains hid] at h
      obtain ⟨_, _, h⟩ := map_eq_ok_iff.1 h
      cases h
      exact Or.inl rfl
  | false =>
      rw [submit_of_not_contains hid] at h
      obtain ⟨direct, hdirect, h⟩ := bind_eq_ok_iff.1 h
      obtain ⟨genres, hgenres, h⟩ := bind_eq_ok_iff.1 h
      obtain ⟨idols, hidols, h⟩ := bind_eq_ok_iff.1 h
      obtain ⟨t, ht, h⟩ := bind_eq_ok_iff.1 h
      obtain ⟨_, _, h⟩ := bind_eq_ok_iff.1 h
      cases h
      obtain ⟨_, _, _, hstore⟩ := s.enrolments_eq direct ⟨genres, idols⟩
      refine Or.inr ⟨direct, ⟨genres, idols⟩, hdirect, fun a => ?_, fun k => ?_⟩
      · cases a
        · exact hgenres
        · exact hidols
      · have hkeys := congrArg (fun t => keys t k) hstore
        simp only [keys_enrolNamed] at hkeys
        exact (keys_of_createRecord ht k).trans hkeys

/-- A resubmission that answers changes nothing, or enrols the keys that it names. -/
theorem enrolled_of_resubmit
    {sub : Resubmission} {found? : Option Aggregate}
    (h : s.resubmit today id sub = .ok (found?, s')) :
    s' = s ∨ ∃ direct attached,
      storableDirect sub.direct = .ok direct ∧
      (∀ a, storableRows
        (PerAttached.get ⟨sub.attached.genre.getD [], sub.attached.idol.getD []⟩ a)
          = .ok (attached.get a)) ∧
      ∀ k, s'.keys k = (s.keys k).enrolAll (namedKeys direct attached k) := by
  cases hid : s.records.contains id with
  | true =>
      rw [resubmit_of_contains hid] at h
      obtain ⟨direct, hdirect, h⟩ := bind_eq_ok_iff.1 h
      obtain ⟨genres?, hgenres, h⟩ := bind_eq_ok_iff.1 h
      obtain ⟨idols?, hidols, h⟩ := bind_eq_ok_iff.1 h
      obtain ⟨_, _, _, hstore⟩ := s.enrolments_eq direct ⟨genres?.getD [], idols?.getD []⟩
      simp only [enrolAttached?_eq] at h
      refine Or.inr ⟨direct, ⟨genres?.getD [], idols?.getD []⟩, hdirect, fun a => ?_, fun k => ?_⟩
      · cases a
        · exact storableRows_getD hgenres
        · exact storableRows_getD hidols
      · have hkeys := congrArg (fun t => keys t k) hstore
        simp only [keys_enrolNamed] at hkeys
        exact (keys_of_reviseRecord h k).trans hkeys
  | false =>
      rw [resubmit_of_not_contains hid] at h
      cases h
      exact Or.inl rfl

theorem nextId_submit_le
    {sub : Submission} {found? : Option Aggregate}
    (h : s.submit today id sub = .ok (found?, s')) (k : Kind) :
    (s'.keys k).nextId ≤ (s.keys k).nextId + sub.mentions k := by
  rcases enrolled_of_submit h with rfl | ⟨direct, attached, hdirect, hattached, hkeys⟩
  · omega
  · rw [hkeys, ← keys_enrolNamed]
    exact nextId_enrolNamed_le hdirect hattached s k

theorem nextId_resubmit_le
    {sub : Resubmission} {found? : Option Aggregate}
    (h : s.resubmit today id sub = .ok (found?, s')) (k : Kind) :
    (s'.keys k).nextId ≤ (s.keys k).nextId + sub.mentions k := by
  rcases enrolled_of_resubmit h with rfl | ⟨direct, attached, hdirect, hattached, hkeys⟩
  · omega
  · rw [hkeys, ← keys_enrolNamed]
    exact nextId_enrolNamed_le hdirect hattached s k

/-- The next ids grow by the rows at most that an operation names. -/
theorem nextId_run_le
    {op : Operation} {a : Answer}
    (numbered : s.Numbered)
    (h : op.run today s = .ok (a, s')) (k : Kind) :
    (s'.keys k).nextId ≤ (s.keys k).nextId + op.mentions k := by
  -- most operations add no row
  have hsame (hkeys : s'.keys k = s.keys k) :
      (s'.keys k).nextId ≤ (s.keys k).nextId + op.mentions k := by
    rw [hkeys]
    omega
  have hless (hrows : ∀ j, (s'.keys k).contains j = true → (s.keys k).contains j = true) :
      (s'.keys k).nextId ≤ (s.keys k).nextId + op.mentions k := by
    have := numbered.nextId_le_of_contains hrows
    omega
  cases ran_of_run h with
  | read _ _ => exact hsame rfl
  | @enrol k' _ c _ =>
      rw [enrol_eq, keys_setKeys]
      show _ ≤ _ + ((if k = k' then 1 else 0 : Nat) : Int)
      split
      · rename_i hk
        subst hk
        exact (s.keys k).nextId_enrol_le c.key
      · omega
  | amend amended => exact hless fun j => contains_of_amend amended
  | remove removed => exact hless fun j => contains_of_remove removed
  | createRecord _ created => exact hsame (keys_of_createRecord created k)
  | reviseRecord _ revised => exact hsame (keys_of_reviseRecord revised k)
  | addLinks _ added => exact hsame (keys_of_addLinks added k)
  | deleteRecord _ => exact hsame (keys_deleteRecord s _ k)
  | submit _ submitted => exact nextId_submit_le submitted k
  | resubmit _ resubmitted => exact nextId_resubmit_le resubmitted k

/-- How many rows of each kind the operations of a run name. -/
def namedIn (steps : List (Date × Operation)) (k : Kind) : Nat :=
  (steps.map fun step => step.2.mentions k).sum

theorem nextId_after_le
    (numbered : s.Numbered) (steps : List (Date × Operation)) (k : Kind) :
    ((s.after steps).keys k).nextId ≤ (s.keys k).nextId + namedIn steps k := by
  induction steps generalizing s with
  | nil => simp [after, namedIn]
  | cons step steps ih =>
      have hnumbered := (step.2.edits_store step.1 s).invariant
        (fun _ _ => numbered_of_edit) numbered
      have hrest := ih hnumbered
      have hone : (((step.2.run step.1).store s).keys k).nextId
          ≤ (s.keys k).nextId + step.2.mentions k := by
        refine Action.store_cases (step.2.run step.1) s (fun _ _ hrun => ?_) fun _ _ => ?_
        · exact nextId_run_le numbered hrun k
        · omega
      simp only [namedIn, List.map_cons, List.sum_cons] at hrest ⊢
      show ((((step.2.run step.1).store s).after steps).keys k).nextId ≤ _
      omega

/-- There is room after a run that names few rows. -/
theorem hasRoom_after
    (steps : List (Date × Operation)) (more : Kind → Nat)
    (few : ∀ k, namedIn steps k + more k + 2 ≤ 0x8000000000000000) :
    (seeded.after steps).HasRoom more := by
  have hseeded : ∀ k, (seeded.keys k).nextId ≤ 2 := by decide
  intro k
  have hle := nextId_after_le numbered_seeded steps k
  have := hseeded k
  have := few k
  omega

end Growth

end Store
end CardCatalog
