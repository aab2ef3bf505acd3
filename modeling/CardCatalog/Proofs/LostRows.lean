import CardCatalog.Proofs.Isolation
import CardCatalog.Proofs.Uses

/-!
# What a lost row leaves behind

A reference row is lost when it is removed, and when it is merged with another row that holds the
same key; of the two rows the unknown one survives, or else the one that was not amended.  The
references to the lost row do not go to the survivor.  Those of a direct kind fall back to the
unknown row, and attachments are gone with it.

Results: a row can be lost in one way only (`lost_of_run`), and in a sound store all references
are accounted for then (`references_conserved`).
-/

namespace CardCatalog

open Calendar (Date)
open Text (Wide)

namespace Store

/-- What is left when a row is lost: the store without it, where another row may have a new key. -/
inductive Lost (s : Store) (k : Kind) (i : Int) : Store → Prop
  | intro
      (keys : Table Int (NaturalKey String))
      (exposed : isProtected k i = false)
      (ids : ∀ j, keys.contains j = (decide (j ≠ i) && (s.keys k).contains j)) :
      Lost s k i ((s.without k i).setKeys k keys)

section Losing

variable {s t : Store} {k k' : Kind} {i i' : Int}

/-- A row that is lost when a row is dropped is that row. -/
theorem eq_of_lost_without
    (held : (s.keys k).contains i = true)
    (lost : ((s.without k' i').keys k).contains i = false) :
    k = k' ∧ i = i' := by
  rw [keys_without] at lost
  split at lost
  · rename_i hk
    subst hk
    refine ⟨rfl, ?_⟩
    by_contra hne
    rw [Table.contains_erase, held, decide_eq_true hne] at lost
    cases lost
  · rw [held] at lost
    cases lost

/-- A row that is lost is the one that was dropped. -/
theorem lost_of_dropLookup
    (held : (s.keys k).contains i = true)
    (lost : (t.keys k).contains i = false)
    (exposed : isProtected k' i' = false)
    (h : s.dropLookup k' i' = .ok t) :
    s.Lost k i t := by
  obtain ⟨_, rfl⟩ := (s.dropLookup_eq_ok_iff k' i').1 h
  obtain ⟨rfl, rfl⟩ := eq_of_lost_without held lost
  have hlost := Lost.intro (s := s) ((s.without k i).keys k) exposed fun j => by
    rw [keys_without, if_pos rfl, Table.contains_erase]
  rwa [setKeys_keys] at hlost

theorem lost_of_remove
    {b : Bool}
    (held : (s.keys k).contains i = true)
    (lost : (t.keys k).contains i = false)
    (h : s.remove k' i' = .ok (b, t)) :
    s.Lost k i t := by
  cases removed_of_remove h with
  | absent _ => simp [held] at lost
  | gone _ exposed dropped => exact lost_of_dropLookup held lost exposed dropped

/-- A row that is lost when a row is amended is the one that was merged into the other. -/
theorem lost_of_amend
    {p : Patch Wide} {row? : Option Lookup}
    (held : (s.keys k).contains i = true)
    (lost : (t.keys k).contains i = false)
    (h : s.amend k' i' p = .ok (row?, t)) :
    s.Lost k i t := by
  cases amended_of_amend h with
  | absent _ => simp [held] at lost
  | renamed _ _ _ =>
      rw [keys_setKeys] at lost
      split at lost
      · rename_i hk
        simp [← hk, held] at lost
      · simp [held] at lost
  | @absorbed row other _ u found _ hheld safe dropped =>
      obtain ⟨hfound, _⟩ := lookup?_eq_some_iff.1 found
      obtain ⟨_, _, hne⟩ := get?_of_holder?_eq_some hheld
      have hne : other.id ≠ i' := fun e => hne (congrArg some e)
      obtain ⟨_, rfl⟩ := (s.dropLookup_eq_ok_iff k' other.id).1 dropped
      -- the row that is amended stays, so the lost one is the other holder
      have hlost : ((s.without k' other.id).keys k).contains i = false := by
        rw [keys_setKeys] at lost
        split at lost
        · rename_i hk
          rw [hk]
          rw [Table.contains_put, Bool.or_eq_false_iff] at lost
          exact lost.2
        · exact lost
      obtain ⟨rfl, rfl⟩ := eq_of_lost_without held hlost
      refine .intro _ (isProtected_eq_false_of_ne safe hne) fun j => ?_
      rw [keys_without, if_pos rfl, Table.contains_put, Table.contains_erase]
      by_cases hj : j = i'
      · have hamended := (s.keys k).contains_iff.2 ⟨_, hfound⟩
        simp [hj, hne.symm, hamended]
      · simp [hj]
  | yielded _ _ _ exposed dropped => exact lost_of_dropLookup held lost exposed dropped

/-- Only removing and amending rows can lose one. -/
theorem lost_of_run
    {today : Date} {op : Operation} {a : Answer}
    (held : (s.keys k).contains i = true)
    (lost : (t.keys k).contains i = false)
    (h : op.run today s = .ok (a, t)) :
    s.Lost k i t := by
  have hkept (hkeys : ∀ k i key, (s.keys k).get? i = some key → (t.keys k).get? i = some key) :
      s.Lost k i t := by
    obtain ⟨key, hkey⟩ := (s.keys k).contains_iff.1 held
    rw [(t.keys k).contains_iff.2 ⟨key, hkeys k i key hkey⟩] at lost
    cases lost
  cases hw : op.recordId? with
  | some w =>
      obtain ⟨_, _, htouched⟩ := touched_of_run hw h
      exact hkept htouched.keptBut.keys
  | none =>
      cases ran_of_run h with
      | read _ _ => exact hkept fun _ _ _ h => h
      | @enrol k' _ c _ =>
          refine hkept fun k i key hkey => ?_
          rw [enrol_eq, keys_setKeys]
          split
          · rename_i hk
            exact Table.get?_enrol_of_some _ (hk ▸ hkey)
          · exact hkey
      | amend amended => exact lost_of_amend held lost amended
      | remove removed => exact lost_of_remove held lost removed
      | createRecord | reviseRecord | addLinks | deleteRecord | submit | resubmit => cases hw

end Losing

/-- Where a row is lost, all references to it are accounted for, and nothing else changes. -/
structure Conserves (s : Store) (k : Kind) (i : Int) (t : Store) : Prop where
  /-- Records lose nothing but a reference to the row, which is one to the unknown row then. -/
  records : ∀ r, t.records.get? r = (s.records.get? r).map (·.without k i)
  /-- Of the attachments, just those to the row are gone. -/
  attachments : ∀ a,
    (t.attachments.get a).rows
      = (s.attachments.get a).rows.filter fun e => ¬ (k = .attached a ∧ e.2.target = i)
  links : t.links = s.links
  others : ∀ k', k' ≠ k → t.keys k' = s.keys k'
  /-- The unknown row is counted with the uses of the lost row. -/
  gained : ∀ d, k = .direct d →
    ∃ n m, s.Counts k unknownId n ∧ s.Counts k i m ∧ t.Counts k unknownId (n + m)
  /-- All other rows that are left are counted as before. -/
  kept : ∀ j, j ≠ i → (∀ d, k = .direct d → j ≠ unknownId) →
    ∀ n, t.Counts k j n ↔ s.Counts k j n

section Accounting

variable {s t : Store} {k : Kind} {i : Int}

theorem attachments_without (s : Store) (k : Kind) (i : Int) (a : AttachedKind) :
    ((s.without k i).attachments.get a).rows
      = (s.attachments.get a).rows.filter fun e => ¬ (k = .attached a ∧ e.2.target = i) := by
  cases k with
  | direct d => simp [without]
  | attached a' =>
      by_cases h : a = a'
      · subst h
        simp [without, Table.filter]
      · have h' : ¬ a' = a := fun e => h e.symm
        simp [without, h, h']

/-- The unknown row is used as often as it and the lost row were. -/
theorem uses_unknown_without
    (s : Store) (d : DirectKind)
    (hne : i ≠ unknownId) :
    (s.without (.direct d) i).uses (.direct d) unknownId
      = s.uses (.direct d) unknownId + s.uses (.direct d) i := by
  show (s.records.rows.map fun e => (e.1, e.2.without (.direct d) i)).countP
      (fun e => e.2.refs.get d = unknownId)
    = s.records.rows.countP (fun e => e.2.refs.get d = unknownId)
      + s.records.rows.countP fun e => e.2.refs.get d = i
  induction s.records.rows with
  | nil => rfl
  | cons e es ih =>
      rw [List.map_cons, List.countP_cons, List.countP_cons, List.countP_cons, ih]
      simp only [RecordRow.get_refs_without, true_and, decide_eq_true_eq]
      by_cases hi : e.2.refs.get d = i
      · simp only [hi, hne, if_true, if_false]
        omega
      · simp only [hi, if_false]
        omega

/-- Rows other than the lost one and the unknown one are used as often as before. -/
theorem uses_without
    (s : Store) (k : Kind) {j : Int}
    (hlost : j ≠ i)
    (hunknown : ∀ d, k = .direct d → j ≠ unknownId) :
    (s.without k i).uses k j = s.uses k j := by
  cases k with
  | direct d =>
      have hne := hunknown d rfl
      show (s.records.rows.map fun e => (e.1, e.2.without (.direct d) i)).countP _
        = s.records.rows.countP _
      rw [List.countP_map]
      refine List.countP_congr fun e _ => ?_
      simp only [Function.comp, RecordRow.get_refs_without, true_and, decide_eq_true_eq]
      split
      · rename_i hi
        rw [hi]
        exact ⟨fun h => absurd h.symm hne, fun h => absurd h.symm hlost⟩
      · rfl
  | attached a =>
      unfold uses
      dsimp only
      rw [attachments_without, List.countP_filter]
      refine List.countP_congr fun e _ => ?_
      simp only [Bool.and_eq_true, decide_eq_true_eq, true_and]
      exact ⟨fun h => h.1, fun h => ⟨h, fun hi => hlost (h.symm.trans hi)⟩⟩

/-- In a sound store all references to a lost row are accounted for. -/
theorem Lost.conserves
    (h : s.Lost k i t)
    (sound : s.Sound)
    (held : (s.keys k).contains i = true) :
    s.Conserves k i t := by
  obtain ⟨keys, exposed, ids⟩ := h
  have huses (j : Int) : ((s.without k i).setKeys k keys).uses k j = (s.without k i).uses k j := by
    cases k <;> rfl
  have hids (j : Int) :
      (((s.without k i).setKeys k keys).keys k).contains j
        = (decide (j ≠ i) && (s.keys k).contains j) := by
    rw [keys_setKeys, if_pos rfl]
    exact ids j
  refine ⟨fun r => ?_, fun a => ?_, ?_, fun k' hk' => ?_, ?_, ?_⟩
  · exact s.get?_records_without k i r
  · exact s.attachments_without k i a
  · exact s.links_without k i
  · rw [keys_setKeys, if_neg hk', keys_without, if_neg hk']
  · rintro d rfl
    have hne : i ≠ unknownId := of_decide_eq_false exposed
    have hunknown := sound.unknown d
    refine ⟨_, _, counts_iff.2 ⟨hunknown, rfl⟩, counts_iff.2 ⟨held, rfl⟩, counts_iff.2 ⟨?_, ?_⟩⟩
    · rw [hids, hunknown, decide_eq_true hne.symm]
      rfl
    · rw [huses, uses_unknown_without s d hne]
  · intro j hlost hunknown n
    rw [counts_iff, counts_iff, hids, huses, uses_without s k hlost hunknown,
      decide_eq_true hlost, Bool.true_and]

end Accounting

/-- After every run on a fresh store, whenever an operation loses a reference row, all references
to the row are accounted for, and nothing else changes. -/
theorem references_conserved
    (steps : List (Date × Operation))
    {today : Date} {op : Operation} {a : Answer} {t : Store} {k : Kind} {i : Int}
    (run : op.run today (seeded.after steps) = .ok (a, t))
    (held : ((seeded.after steps).keys k).contains i = true)
    (lost : (t.keys k).contains i = false) :
    (seeded.after steps).Conserves k i t :=
  (lost_of_run held lost run).conserves (sound_after steps) held

/-- The unknown director takes the name of another one, and with it all its records. -/
theorem conserved_by_unknown_director :
    let s := seeded.after
      [ (.epoch, .submit "a" { direct := ⟨some { name := "Ford" }, none, none, none⟩ }),
        (.epoch, .submit "b" {}) ]
    let amend : Operation := .amend (.direct .director) 1 { name? := some "Ford" }
    let t := (amend.run .epoch).store s
    amend.run .epoch s = .ok (.lookup (some ⟨1, ⟨"Ford", "", false⟩⟩), t) ∧
      (s.keys (.direct .director)).contains 2 = true ∧
      (t.keys (.direct .director)).contains 2 = false ∧
      s.Conserves (.direct .director) 2 t := by
  intro s amend t
  have run : amend.run .epoch s = .ok (.lookup (some ⟨1, ⟨"Ford", "", false⟩⟩), t) := rfl
  have held : (s.keys (.direct .director)).contains 2 = true := by decide
  have lost : (t.keys (.direct .director)).contains 2 = false := by decide
  exact ⟨run, held, lost, references_conserved _ run held lost⟩

end Store
end CardCatalog
