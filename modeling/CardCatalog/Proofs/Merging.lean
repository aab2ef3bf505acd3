import CardCatalog.Proofs.KeyCounts
import CardCatalog.Proofs.ServiceFaults
import CardCatalog.Proofs.StableIds

/-!
# Rows that are merged

A row that is patched gets a new key.  If another row holds that key already, one of the two goes,
and the one that stays is answered: the other row, so that the answer may have another id than was
asked for, but the unknown row of a direct kind stays itself and takes the key over.

After a run on a fresh store a key is held once at most, so there is one other row at most to be
merged with; and a patch that has been applied finds its key held by the row that it is applied to.

Results: what becomes of the rows of a kind (`merges_of_amended`), that a row of a sound store is
patched if the patch can be stored (`Sound.exists_amend`), that the same patch changes nothing the
second time (`amend_again`), and all of this after every run (`amended_after`).
-/

namespace CardCatalog

open Calendar (Date)
open Text (Wide)

section Patches

theorem mapM_toStorable_eq_ok_iff
    {w? : Option Wide} {s? : Option String} :
    w?.mapM Wide.toStorable = .ok s? ↔ w? = s?.map Wide.ofText := by
  cases w? with
  | none => cases s? <;> simp [pure, Except.pure]
  | some w =>
      show w.toStorable.map some = .ok s? ↔ _
      rw [map_eq_ok_iff]
      cases s? <;> simp [toStorable_eq_ok_iff]

/-- A patch that can be stored changes a key as it is submitted. -/
theorem Patch.wide_apply
    {p : Patch Wide} {p' : Patch String}
    (h : p.toStorable = .ok p') (key : NaturalKey String) :
    (p'.apply key).wide = p.apply key.wide := by
  obtain ⟨name?, hname, h⟩ := bind_eq_ok_iff.1 h
  obtain ⟨link?, hlink, h⟩ := bind_eq_ok_iff.1 h
  cases h
  simp only [apply, NaturalKey.wide, mapM_toStorable_eq_ok_iff.1 hname,
    mapM_toStorable_eq_ok_iff.1 hlink]
  cases name? <;> cases link? <;> rfl

/-- A patch of texts without halves can be stored. -/
theorem Patch.exists_toStorable
    {p : Patch Wide}
    (texts : HasWholeTexts p.checks) :
    ∃ p', p.toStorable = .ok p' := by
  cases h : p.toStorable with
  | ok p' => exact ⟨p', rfl⟩
  | error e =>
      have hfirst := (stopsAt_patch p e).1 h
      obtain ⟨⟨n, hn, _⟩, _⟩ := (firstFault?_of_texts texts e).1 hfirst
      simp [Patch.checks] at hn

end Patches

namespace Store

/-- What becomes of the rows of a kind when one of them is amended, and a row with its new key is
answered. -/
structure Merges (s : Store) (k : Kind) (id : Int) (row : Lookup) (t : Store) : Prop where
  found : t.lookup? k row.id = some row
  /-- If no other row held the key, the row itself has it, and there are the same rows. -/
  alone : (∀ j, j ≠ id → (s.keys k).get? j ≠ some row.key) →
    row.id = id ∧ ∀ i, (t.keys k).contains i = (s.keys k).contains i
  /-- If another one did, the unknown row takes the key over, and any other row yields. -/
  merged : ∀ j, j ≠ id → (s.keys k).get? j = some row.key →
    row.id = (if isProtected k id then id else j) ∧
      ∀ i, (t.keys k).contains i
        = (decide (i ≠ if isProtected k id then j else id) && (s.keys k).contains i)
  /-- The rows that are left, but for the amended one, are those that there were. -/
  unchanged : ∀ i, i ≠ id → ∀ key,
    (t.keys k).get? i = some key → (s.keys k).get? i = some key
  others : ∀ k', k' ≠ k → t.keys k' = s.keys k'

section Amending

variable {s t : Store} {k : Kind} {id : Int} {p : Patch Wide} {row : Lookup}

/-- Where a key is held once at most, rows that hold it are the same one. -/
theorem eq_of_holders_le_one
    {key : NaturalKey String} {i j : Int}
    (once : s.holders k key ≤ 1)
    (hi : (s.keys k).get? i = some key)
    (hj : (s.keys k).get? j = some key) :
    i = j := by
  unfold holders at once
  rw [List.countP_eq_length_filter] at once
  have hmem {i : Int} (hi : (s.keys k).get? i = some key) :
      (i, key) ∈ (s.keys k).rows.filter fun e => e.2 = key :=
    List.mem_filter.2 ⟨(s.keys k).get?_eq_some_iff.1 hi, decide_eq_true rfl⟩
  have hi := hmem hi
  have hj := hmem hj
  generalize ((s.keys k).rows.filter fun e => decide (e.2 = key)) = found at once hi hj
  match found with
  | [] => cases hi
  | [e] => exact congrArg Prod.fst ((List.mem_singleton.1 hi).trans (List.mem_singleton.1 hj).symm)
  | _ :: _ :: _ => simp at once

/-- The row that is answered has the new key. -/
theorem key_of_amended
    (h : s.Amended k id p (some row) t) :
    ∃ old p', s.lookup? k id = some old ∧ p.toStorable = .ok p' ∧ row.key = p'.apply old.key := by
  cases h with
  | renamed found stored _ => exact ⟨_, _, found, stored, rfl⟩
  | absorbed found stored _ _ _ => exact ⟨_, _, found, stored, rfl⟩
  | yielded found stored held _ _ =>
      exact ⟨_, _, found, stored, (get?_of_holder?_eq_some held).2.1⟩

/-- A row is given a key that no other row holds. -/
theorem merges_renamed
    {key : NaturalKey String}
    (found : (s.keys k).contains id = true)
    (free : ∀ j, j ≠ id → (s.keys k).get? j ≠ some key) :
    s.Merges k id ⟨id, key⟩ (s.setKeys k ((s.keys k).put id key)) where
  found := by simp [lookup?]
  alone _ := by
    refine ⟨rfl, fun i => ?_⟩
    rw [keys_setKeys, if_pos rfl, Table.contains_put]
    by_cases hi : i = id <;> simp [hi, found]
  merged j hne hj := absurd hj (free j hne)
  unchanged i hne key' hkey := by simpa [hne] using hkey
  others k' hne := by simp [hne]

/-- The unknown row takes the key over from the only other row that holds it. -/
theorem merges_absorbed
    {key : NaturalKey String} {j : Int}
    (found : (s.keys k).contains id = true)
    (safe : isProtected k id = true)
    (hne : j ≠ id)
    (held : (s.keys k).get? j = some key)
    (only : ∀ i, (s.keys k).get? i = some key → i = j) :
    let u := s.without k j
    s.Merges k id ⟨id, key⟩ (u.setKeys k ((u.keys k).put id key)) := by
  intro u
  have hkeys : (u.setKeys k ((u.keys k).put id key)).keys k = ((s.keys k).erase j).put id key := by
    simp [u]
  refine ⟨?_, fun free => absurd held (free j hne), fun i _ hi => ?_, fun i hid key' hkey => ?_,
    fun k' hk => ?_⟩
  · simp [lookup?]
  · cases only i hi
    simp only [safe, if_true, true_and]
    intro i
    rw [hkeys, Table.contains_put, Table.contains_erase]
    by_cases hi : i = id <;> simp [hi, hne.symm, found]
  · rw [hkeys, Table.get?_put, if_neg hid, Table.erase, Table.get?_filter,
      Option.filter_eq_some_iff] at hkey
    exact hkey.1
  · simp [u, hk]

/-- A row yields to the only other row that holds its new key. -/
theorem merges_yielded
    {row : Lookup}
    (exposed : isProtected k id = false)
    (hne : row.id ≠ id)
    (held : (s.keys k).get? row.id = some row.key)
    (only : ∀ i, (s.keys k).get? i = some row.key → i = row.id) :
    s.Merges k id row (s.without k id) := by
  have hkeys : (s.without k id).keys k = (s.keys k).erase id := by simp
  refine ⟨?_, fun free => absurd held (free row.id hne), fun i _ hi => ?_,
    fun i hid key' hkey => ?_, fun k' hk => ?_⟩
  · refine lookup?_eq_some_iff.2 ⟨?_, rfl⟩
    simp [Table.erase, held, hne]
  · cases only i hi
    simp only [exposed, Bool.false_eq_true, if_false, true_and]
    intro i
    rw [hkeys, Table.contains_erase]
  · rw [hkeys, Table.erase, Table.get?_filter, Option.filter_eq_some_iff] at hkey
    exact hkey.1
  · simp [hk]

/-- Where keys are held once at most, a row is merged with the only other one that holds its new
key, if there is one. -/
theorem merges_of_amended
    (once : ∀ key, s.holders k key ≤ 1)
    (h : s.Amended k id p (some row) t) :
    s.Merges k id row t := by
  cases h with
  | renamed found stored free =>
      obtain ⟨hfound, _⟩ := lookup?_eq_some_iff.1 found
      refine merges_renamed ((s.keys k).contains_iff.2 ⟨_, hfound⟩) fun j hne hj => hne ?_
      exact Option.some.inj
        (holder?_eq_none_iff.1 free (j, _) ((s.keys k).get?_eq_some_iff.1 hj) rfl)
  | absorbed found stored held safe dropped =>
      obtain ⟨hfound, _⟩ := lookup?_eq_some_iff.1 found
      obtain ⟨hget, _, hne⟩ := get?_of_holder?_eq_some held
      obtain ⟨_, rfl⟩ := (s.dropLookup_eq_ok_iff k _).1 dropped
      exact merges_absorbed ((s.keys k).contains_iff.2 ⟨_, hfound⟩) safe
        (fun e => hne (congrArg some e)) hget fun i hi => eq_of_holders_le_one (once _) hi hget
  | yielded found stored held exposed dropped =>
      obtain ⟨hget, hkey, hne⟩ := get?_of_holder?_eq_some held
      obtain ⟨_, rfl⟩ := (s.dropLookup_eq_ok_iff k id).1 dropped
      rw [← hkey] at hget
      exact merges_yielded exposed (fun e => hne (congrArg some e)) hget
        fun i hi => eq_of_holders_le_one (once _) hi hget

/-- In a sound store, a row is patched if the patch can be stored. -/
theorem Sound.exists_amend
    {old : Lookup} {p' : Patch String}
    (h : s.Sound)
    (range : Number.InRange id)
    (found : s.lookup? k id = some old)
    (stored : p.toStorable = .ok p') :
    ∃ row t, s.amend k id p = .ok (some row, t) := by
  have hrange : checkRange [id] = .ok () := checkRange_eq_ok_iff.2 (by simpa using range)
  unfold amend
  simp only [hrange, found, stored, ok_bind_eq]
  cases held : s.holder? k (p'.apply old.key) (some id) with
  | none => exact ⟨_, _, rfl⟩
  | some other =>
      have hne : other.id ≠ id :=
        fun e => (get?_of_holder?_eq_some held).2.2 (congrArg some e)
      dsimp only
      split
      · rename_i safe
        rw [h.dropLookup_eq (isProtected_eq_false_of_ne safe hne)]
        exact ⟨_, _, rfl⟩
      · rename_i exposed
        rw [h.dropLookup_eq (by simpa using exposed)]
        exact ⟨_, _, rfl⟩

theorem amend_eq_none_iff
    (range : Number.InRange id) :
    s.amend k id p = .ok (none, t) ↔ s.lookup? k id = none ∧ t = s := by
  have hrange : checkRange [id] = .ok () := checkRange_eq_ok_iff.2 (by simpa using range)
  constructor
  · intro h
    cases amended_of_amend h with
    | absent missing => exact ⟨missing, rfl⟩
  · rintro ⟨missing, rfl⟩
    unfold amend
    simp only [hrange, missing, ok_bind_eq]

/-- Where a row is found, a patch stops at its texts, and nowhere else. -/
theorem Sound.amend_eq_error_iff
    {e : Fault}
    (h : s.Sound)
    (range : Number.InRange id) :
    s.amend k id p = .error e ↔
      (s.keys k).contains id = true ∧ firstFault? p.checks = some e := by
  have hrange : checkRange [id] = .ok () := checkRange_eq_ok_iff.2 (by simpa using range)
  rw [← stopsAt_patch p e]
  cases found : s.lookup? k id with
  | none =>
      have hmissing : (s.keys k).contains id = false := by
        simpa [lookup?, Table.contains] using found
      rw [(amend_eq_none_iff range).2 ⟨found, rfl⟩, hmissing]
      simp
  | some old =>
      have hfound : (s.keys k).contains id = true :=
        (s.keys k).contains_iff.2 ⟨_, (lookup?_eq_some_iff.1 found).1⟩
      cases stored : p.toStorable with
      | ok p' =>
          obtain ⟨row, t, hamend⟩ := h.exists_amend range found stored
          simp [hamend]
      | error e' =>
          have hamend : s.amend k id p = .error e' := by
            unfold amend
            simp only [hrange, found, stored, ok_bind_eq]
            rfl
          simp [hamend, hfound]

/-- A row that has the key to which it is patched, and is the only one, stays as it is. -/
theorem amend_again
    {p' : Patch String}
    (once : ∀ key, s.holders k key ≤ 1)
    (range : Number.InRange row.id)
    (found : s.lookup? k row.id = some row)
    (stored : p.toStorable = .ok p')
    (applied : p'.apply row.key = row.key) :
    s.amend k row.id p = .ok (some row, s) := by
  have hrange : checkRange [row.id] = .ok () := checkRange_eq_ok_iff.2 (by simpa using range)
  obtain ⟨hget, _⟩ := lookup?_eq_some_iff.1 found
  have hfree : s.holder? k row.key (some row.id) = none := by
    refine holder?_eq_none_iff.2 fun e he hkey => congrArg some ?_
    have he := (s.keys k).mem_rows_iff.1 he
    rw [hkey] at he
    exact eq_of_holders_le_one (once _) he hget
  unfold amend
  simp only [hrange, found, stored, applied, hfree, ok_bind_eq, Table.put_self hget, setKeys_keys]

end Amending

/-- After every run on a fresh store, a patch of a row answers none exactly if the row is missing,
and is refused exactly if the row is there and the patch has a text with half of a surrogate pair.
Any other patch answers a row that has the new key, after the two rows are merged if there was
another one with this key; and the same patch of the row that is answered, which can be asked for
while there is room for its id, changes nothing. -/
theorem amended_after
    (steps : List (Date × Operation)) (today : Date) (k : Kind) {id : Int}
    (range : Number.InRange id) (p : Patch Wide) :
    let s := seeded.after steps
    let amend := Operation.run today (.amend k id p)
    (∀ t, amend s = .ok (.lookup none, t) ↔ s.lookup? k id = none ∧ t = s) ∧
      (∀ e, amend s = .error e ↔
        (s.keys k).contains id = true ∧ firstFault? p.checks = some e) ∧
      ∀ old, s.lookup? k id = some old → HasWholeTexts p.checks →
        ∃ row t, amend s = .ok (.lookup (some row), t) ∧
          row.key.wide = p.apply old.key.wide ∧ s.Merges k id row t ∧
          (Number.InRange row.id → ∀ day,
            Operation.run day (.amend k row.id p) t = .ok (.lookup (some row), t)) := by
  intro s amend
  have h : s.Sound := sound_after steps
  have honce : ∀ key, s.holders k key ≤ 1 := holders_after_le steps k
  have hrun : ∀ row? t, amend s = .ok (.lookup row?, t) ↔ s.amend k id p = .ok (row?, t) := by
    intro row? t
    show (s.amend k id p).map _ = _ ↔ _
    rw [map_eq_ok_iff]
    constructor
    · rintro ⟨a, ha, hanswer⟩
      cases hanswer
      exact ha
    · exact fun ha => ⟨_, ha, rfl⟩
  refine ⟨fun t => ?_, fun e => ?_, fun old found texts => ?_⟩
  · rw [hrun, amend_eq_none_iff range]
  · rw [← h.amend_eq_error_iff range]
    exact map_eq_error_iff
  · obtain ⟨p', stored⟩ := Patch.exists_toStorable texts
    obtain ⟨row, t, hamend⟩ := h.exists_amend range found stored
    have hamended := amended_of_amend hamend
    obtain ⟨old', p'', found', stored', hkey⟩ := key_of_amended hamended
    cases found.symm.trans found'
    cases stored.symm.trans stored'
    have hmerges := merges_of_amended honce hamended
    have honce' : ∀ key, t.holders k key ≤ 1 := by
      intro key
      have hle := holders_le_of_edits (edits_of_amend hamend) k key
      have := honce key
      omega
    refine ⟨row, t, (hrun _ _).2 hamend, ?_, hmerges, fun range' day => ?_⟩
    · rw [hkey, Patch.wide_apply stored]
    · have hagain := amend_again honce' range' hmerges.found stored (by rw [hkey, Patch.apply_apply])
      show (t.amend k row.id p).map _ = _
      rw [hagain]
      rfl

/-- A genre that is renamed to another one yields to it, and the unknown director that gets the
name of another one takes its place. -/
theorem amended_to_held_names :
    let steps : List (Date × Operation) :=
      [ (.epoch, .enrol (.attached .genre) { name := "Drama" }),
        (.epoch, .enrol (.attached .genre) { name := "Tragedy" }),
        (.epoch, .enrol (.direct .director) { name := "Ford" }) ]
    let s := seeded.after steps
    let rename (k : Kind) (id : Int) (name : Wide) : Operation := .amend k id { name? := some name }
    let after (op : Operation) : Store := (op.run .epoch).store s
    let drama : Lookup := ⟨1, ⟨"Drama", "", false⟩⟩
    let ford : Lookup := ⟨1, ⟨"Ford", "", false⟩⟩
    Number.InRange 1 ∧ Number.InRange 2 ∧
      ((rename (.attached .genre) 2 "Drama").run .epoch s
          = .ok (.lookup (some drama), after (rename (.attached .genre) 2 "Drama")) ∧
        s.Merges (.attached .genre) 2 drama (after (rename (.attached .genre) 2 "Drama"))) ∧
      (rename (.direct .director) 1 "Ford").run .epoch s
          = .ok (.lookup (some ford), after (rename (.direct .director) 1 "Ford")) ∧
        s.Merges (.direct .director) 1 ford (after (rename (.direct .director) 1 "Ford")) := by
  intro steps s rename after drama ford
  have one : Number.InRange 1 := by decide
  have two : Number.InRange 2 := by decide
  have hdrama : (rename (.attached .genre) 2 "Drama").run .epoch s
      = .ok (.lookup (some drama), after (rename (.attached .genre) 2 "Drama")) := by decide
  have hford : (rename (.direct .director) 1 "Ford").run .epoch s
      = .ok (.lookup (some ford), after (rename (.direct .director) 1 "Ford")) := by decide
  obtain ⟨_, _, hgenre⟩ :=
    amended_after steps .epoch (.attached .genre) two { name? := some "Drama" }
  obtain ⟨row, t, hrun, _, hmerges, _⟩ := hgenre ⟨2, ⟨"Tragedy", "", false⟩⟩ rfl (by decide)
  cases hdrama.symm.trans hrun
  obtain ⟨_, _, hdirector⟩ :=
    amended_after steps .epoch (.direct .director) one { name? := some "Ford" }
  obtain ⟨row', t', hrun', _, hmerges', _⟩ :=
    hdirector ⟨1, unknownKey .director⟩ rfl (by decide)
  cases hford.symm.trans hrun'
  exact ⟨one, two, ⟨hdrama, hmerges⟩, hford, hmerges'⟩

/-- A patch of a row that is there is not answered if its name has half of a surrogate pair. -/
theorem amend_half_stops :
    Number.InRange 1 ∧
      (∃ old, seeded.lookup? (.direct .director) 1 = some old) ∧
      ¬ ∃ row t,
        Operation.run .epoch (.amend (.direct .director) 1 { name? := some ⟨[.half 0]⟩ }) seeded
          = .ok (.lookup (some row), t) := by
  refine ⟨by decide, ⟨⟨1, unknownKey .director⟩, rfl⟩, ?_⟩
  rintro ⟨row, t, h⟩
  cases h

end Store
end CardCatalog
