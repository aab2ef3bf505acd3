import CardCatalog.Proofs.Edits

/-!
# How many rows hold a key

A natural key may be held by several rows, if they were there to begin with.  Every edit is
followed for all keys at once: the old key of a row, its new key, and the keys of the other
rows.

Results: no operation lets more than one row hold a key, unless more did so before; so keys
that are held once at most stay so (`holders_le_and_unique_after`).
-/

namespace CardCatalog

open Calendar (Date)

namespace Store

/-- How many rows of a kind hold a key. -/
def holders (s : Store) (k : Kind) (key : NaturalKey String) : Nat :=
  (s.keys k).rows.countP fun e => e.2 = key

section Edits

variable {s s' : Store}

/-- Nobody holds a key if no row has it. -/
theorem holders_eq_zero_iff
    {k : Kind} {key : NaturalKey String} :
    s.holders k key = 0 ↔ ∀ e ∈ (s.keys k).rows, e.2 ≠ key := by
  simp [holders]

/-- Taking rows away lets no more rows hold a key. -/
theorem holders_without_le (s : Store) (k k' : Kind) (id : Int) (key : NaturalKey String) :
    (s.without k id).holders k' key ≤ s.holders k' key := by
  unfold holders
  rw [keys_without]
  split
  · rename_i hk
    subst hk
    exact List.Sublist.countP_le List.filter_sublist
  · exact Nat.le_refl _

/-- A row in place of another one counts for the key it has. -/
theorem holders_put
    {k : Kind} {id : Int} {old : NaturalKey String} (key key' : NaturalKey String)
    (h : (s.keys k).get? id = some old) :
    (s.setKeys k ((s.keys k).put id key)).holders k key' + (if old = key' then 1 else 0)
      = s.holders k key' + (if key = key' then 1 else 0) := by
  have hcount := Table.countP_rows_put (fun e => e.2 = key') key h
  simpa [holders] using hcount

/-- A key that is added was held by nobody. -/
theorem holders_add_le
    {k : Kind} {key : NaturalKey String}
    (free : ∀ e ∈ (s.keys k).rows, e.2 ≠ key) (key' : NaturalKey String) :
    (s.setKeys k ((s.keys k).push key)).holders k key' ≤ max 1 (s.holders k key') := by
  have hpush : (s.setKeys k ((s.keys k).push key)).holders k key'
      = s.holders k key' + if key = key' then 1 else 0 := by
    simp [holders, List.countP_append]
  by_cases hkey : key = key'
  · subst hkey
    have hzero := holders_eq_zero_iff.2 free
    simp only [if_true] at hpush
    omega
  · simp only [hkey, if_false] at hpush
    omega

/-- A row is given a key that no other row holds. -/
theorem holders_rename_le
    {k : Kind} {id : Int} {old key : NaturalKey String}
    (hold : (s.keys k).get? id = some old)
    (free : ∀ e ∈ (s.keys k).rows, e.2 = key → e.1 = id) (key' : NaturalKey String) :
    (s.setKeys k ((s.keys k).put id key)).holders k key' ≤ max 1 (s.holders k key') := by
  have hput := holders_put key key' hold
  by_cases hkey : key = key'
  · subst hkey
    by_cases hsame : old = key
    · simp only [hsame, if_true] at hput
      omega
    · -- the row itself has another key, so nobody holds this one
      have hzero : s.holders k key = 0 := by
        refine holders_eq_zero_iff.2 fun e he hekey => hsame ?_
        have hget := (s.keys k).mem_rows_iff.1 he
        rw [free e he hekey, hold] at hget
        rw [Option.some.inj hget, hekey]
      simp only [hsame, if_true, if_false] at hput
      omega
  · simp only [hkey, if_false] at hput
    omega

/-- The unknown row takes the key over from a row that goes. -/
theorem holders_absorb_le
    {d : DirectKind} {id : Int} {key : NaturalKey String}
    (unknown : (s.keys (.direct d)).contains unknownId = true)
    (found : (s.keys (.direct d)).get? id = some key)
    (other : id ≠ unknownId) (key' : NaturalKey String) :
    let t := s.without (.direct d) id
    (t.setKeys (.direct d) ((t.keys (.direct d)).put unknownId key)).holders (.direct d) key'
      ≤ max 1 (s.holders (.direct d) key') := by
  intro t
  obtain ⟨old, hold⟩ := (s.keys (.direct d)).contains_iff.1 unknown
  have hne : unknownId ≠ id := fun e => other e.symm
  have hstays : (t.keys (.direct d)).get? unknownId = some old := by
    simp [t, Table.erase, hold, hne]
  have herase : t.holders (.direct d) key' + (if key = key' then 1 else 0)
      = s.holders (.direct d) key' := by
    have hcount := Table.countP_rows_erase (fun e => e.2 = key') found
    simpa [holders, t] using hcount
  have hput := holders_put key key' hstays
  omega

theorem holders_le_of_edit
    (h : Edit s s') (k : Kind) (key : NaturalKey String) :
    s'.holders k key ≤ max 1 (s.holders k key) := by
  -- a kind whose keys stay as they are has the same holders
  have hsame (hkeys : s'.keys k = s.keys k) : s'.holders k key ≤ max 1 (s.holders k key) := by
    unfold holders
    rw [hkeys]
    omega
  cases h with
  | add k' key' free =>
      by_cases hk : k = k'
      · subst hk
        exact holders_add_le free key
      · exact hsame (by simp [hk])
  | rename k' id key' found free =>
      by_cases hk : k = k'
      · subst hk
        obtain ⟨old, hold⟩ := (s.keys k).contains_iff.1 found
        exact holders_rename_le hold free key
      · exact hsame (by simp [hk])
  | remove k' id safe =>
      have := holders_without_le s k' k id key
      omega
  | absorb d id key' unknown found other =>
      by_cases hk : k = .direct d
      · subst hk
        have hle := holders_absorb_le unknown found other key
        simpa using hle
      · exact hsame (by simp [hk])
  | write id row resolves => exact hsame rfl
  | attach a x owner target free => exact hsame rfl
  | detach a id => exact hsame rfl
  | link l owner => exact hsame rfl
  | delete id => exact hsame rfl

end Edits

/-- A bound that every edit keeps is kept by a chain of them. -/
theorem holders_le_of_edits
    {s s' : Store}
    (h : Edits s s') (k : Kind) (key : NaturalKey String) :
    s'.holders k key ≤ max 1 (s.holders k key) := by
  refine h.invariant (P := fun t => t.holders k key ≤ max 1 (s.holders k key)) ?_ ?_
  · intro t t' hedit ht
    have := holders_le_of_edit hedit k key
    omega
  · omega

/-- An operation on any store lets no key be held more than once, unless it was so before;
and where every key is held once at most, it is so after every run. -/
theorem holders_le_and_unique_after (s : Store) :
    (∀ today op k key,
      ((Operation.run today op).store s).holders k key ≤ max 1 (s.holders k key)) ∧
    ((∀ k key, s.holders k key ≤ 1) →
      ∀ (steps : List (Date × Operation)) k key, (s.after steps).holders k key ≤ 1) := by
  constructor
  · intro today op k key
    exact holders_le_of_edits (op.edits_store today s) k key
  · intro hunique steps k key
    have hle := holders_le_of_edits (s.edits_after steps) k key
    have := hunique k key
    omega

/-- In a fresh store no key is held twice. -/
theorem holders_seeded_le (k : Kind) (key : NaturalKey String) :
    seeded.holders k key ≤ 1 := by
  have hlength : ∀ k, (seeded.keys k).rows.length ≤ 1 := by decide
  exact Nat.le_trans List.countP_le_length (hlength k)

/-- After a run on a fresh store no key is held twice. -/
theorem holders_after_le
    (steps : List (Date × Operation)) (k : Kind) (key : NaturalKey String) :
    (seeded.after steps).holders k key ≤ 1 := by
  have hle := holders_le_of_edits (seeded.edits_after steps) k key
  have hseeded := holders_seeded_le k key
  omega

/-- A genre that is renamed to the name of another one is merged with it. -/
theorem holders_after_merging_genres :
    (∀ k key, seeded.holders k key ≤ 1) ∧
      (seeded.after
        [ (.epoch, .enrol (.attached .genre) { name := "Drama" }),
          (.epoch, .enrol (.attached .genre) { name := "Tragedy" }),
          (.epoch, .amend (.attached .genre) 2 { name? := some "Drama" }) ]).holders
        (.attached .genre) ⟨"Drama", "", false⟩ ≤ 1 := by
  exact ⟨holders_seeded_le, (holders_le_and_unique_after seeded).2 holders_seeded_le _ _ _⟩

end Store
end CardCatalog
