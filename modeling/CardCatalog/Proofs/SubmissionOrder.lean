import CardCatalog.Proofs.Portrait
import Mathlib.Algebra.Order.BigOperators.Group.List
import Mathlib.Algebra.Order.Group.Nat

/-!
# The order of submissions

Submissions of different records do not depend on each other, but for the ids that are given
out.  What a submission is answered, which keys it adds, and what its record shows are told
from the store before the first of them; so they are the same in any order.

Results: what one submission does (`submitted`), what a list of them does (`allSubmitted`),
and that the order of a list does not matter (`submissions_perm`).
-/

namespace CardCatalog

open Calendar (Date)
open Text (Wide)

/-- The portrait of the record that is answered. -/
def Answer.portrait? : Answer → Option Portrait
  | .record found? => found?.map Aggregate.portrait
  | _ => none

/-- Submissions on one day. -/
def submissions (today : Date) (subs : List (Wide × Submission)) : List (Date × Operation) :=
  subs.map fun x => (today, .submit x.1 x.2)

/-- How many rows of each kind submissions name together. -/
def mentionsOf (subs : List (Wide × Submission)) (k : Kind) : Nat :=
  (subs.map fun x => x.2.mentions k).sum

namespace Store

/-- What a submission is answered, without ids. -/
def outcome (s : Store) (today : Date) (x : Wide × Submission) :
    Except Fault (Option Portrait) :=
  (Action.answer (Operation.run today (.submit x.1 x.2)) s).map Answer.portrait?

/-- What submissions are answered one after the other, each with the id of its record. -/
def outcomes (s : Store) (today : Date) :
    List (Wide × Submission) → List (Wide × Except Fault (Option Portrait))
  | [] => []
  | x :: rest =>
    let s' := Action.store (Operation.run today (.submit x.1 x.2)) s
    (x.1, s.outcome today x) :: s'.outcomes today rest

/-- A submission of a new record that can be stored names a key. -/
def Adds (s : Store) (today : Date) (x : Wide × Submission) (k : Kind) (key : NaturalKey String) :
    Prop :=
  ∃ id rows,
    x.1 = Wide.ofText id ∧ s.records.contains id = false ∧
      x.2.toStorable today id = .ok rows ∧ key ∈ rows.named k

/-- What the record of a submission shows after it: what the submission is answered, or what
it showed before if the submission stops. -/
def settled (s : Store) (today : Date) (x : Wide × Submission) (id : String) :
    Except Fault (Option Portrait) :=
  match s.outcome today x with
  | .ok found? => .ok found?
  | .error _ => s.shown id

/-- What a submission does to a store, up to ids. -/
structure Submitted (today : Date) (x : Wide × Submission) (s s' : Store) : Prop where
  sound : s'.Sound
  numbered : s'.Numbered
  room : ∀ more, (s.HasRoom fun k => x.2.mentions k + more k) → s'.HasRoom more
  kept : ∀ k id key, (s.keys k).get? id = some key → (s'.keys k).get? id = some key
  values : ∀ k key, key ∈ (s'.keys k).values ↔ key ∈ (s.keys k).values ∨ s.Adds today x k key
  other : ∀ id, x.1 ≠ Wide.ofText id →
    s'.shown id = s.shown id ∧ s'.records.contains id = s.records.contains id
  own : ∀ id, x.1 = Wide.ofText id → s'.shown id = s.settled today x id

/-- What submissions do to a store, up to ids, all told from the store before them. -/
structure AllSubmitted (today : Date) (subs : List (Wide × Submission)) (s s' : Store) :
    Prop where
  kept : ∀ k id key, (s.keys k).get? id = some key → (s'.keys k).get? id = some key
  values : ∀ k key, key ∈ (s'.keys k).values ↔
    key ∈ (s.keys k).values ∨ ∃ x ∈ subs, s.Adds today x k key
  other : ∀ id, (∀ x ∈ subs, x.1 ≠ Wide.ofText id) → s'.shown id = s.shown id
  own : ∀ x ∈ subs, ∀ id, x.1 = Wide.ofText id → s'.shown id = s.settled today x id

section One

variable {s : Store} {today : Date} {id : String} {sub : Submission}

/-- A submission of a new record is answered with its portrait. -/
theorem submit_of_stored
    {rows : SubmissionRows}
    (h : s.Sound) (numbered : s.Numbered)
    (room : s.HasRoom sub.mentions)
    (fresh : s.records.contains id = false)
    (stored : sub.toStorable today id = .ok rows) :
    ∃ a : Aggregate,
      s.submit today id sub = .ok (some a, s.written id rows) ∧
        a.portrait = rows.portrait id s.unknownKeyOf := by
  have hshown := shown_written h fresh (links_of_toStorable stored)
  obtain ⟨found?, hload, hfound⟩ := map_eq_ok_iff.1 hshown
  obtain ⟨a, rfl, ha⟩ := Option.map_eq_some_iff.1 hfound
  refine ⟨a, ?_, ha⟩
  rw [submit_eq sub h numbered room fresh, stored]
  show ((s.written id rows).loadRecord id >>= fun _ => _) = _
  rw [hload]
  rfl

/-- What a submission is answered depends on the store only by whether its record exists,
what it shows, and the keys of the unknown rows. -/
theorem outcome_eq
    {x : Wide × Submission}
    (h : s.Sound) (numbered : s.Numbered)
    (room : s.HasRoom x.2.mentions) :
    s.outcome today x = (do
      let id ← x.1.toStorable
      if s.records.contains id then s.shown id
      else do
        let rows ← x.2.toStorable today id
        .ok (some (rows.portrait id s.unknownKeyOf))) := by
  unfold outcome Action.answer
  rw [run_submit, map_bind_eq, map_bind_eq]
  refine bind_congr fun id => ?_
  by_cases hfound : s.records.contains id = true
  · rw [submit_of_contains hfound, if_pos hfound]
    unfold shown
    cases s.loadRecord id <;> rfl
  · have fresh : s.records.contains id = false := by simpa using hfound
    rw [if_neg hfound]
    cases hstored : x.2.toStorable today id with
    | error e =>
        rw [submit_eq x.2 h numbered room fresh, hstored]
        rfl
    | ok rows =>
        obtain ⟨a, hsubmit, ha⟩ := submit_of_stored h numbered room fresh hstored
        rw [hsubmit]
        show Except.ok (some a.portrait) = Except.ok _
        rw [ha]

/-- A submission changes nothing, unless its record is new and can be stored. -/
theorem store_submit_eq
    {x : Wide × Submission}
    (h : s.Sound) (numbered : s.Numbered)
    (room : s.HasRoom x.2.mentions) :
    (Action.store (Operation.run today (.submit x.1 x.2)) s = s ∧
        ∀ id, x.1 = Wide.ofText id → s.records.contains id = false →
          ∃ e, x.2.toStorable today id = .error e) ∨
      ∃ id rows,
        x.1 = Wide.ofText id ∧ s.records.contains id = false ∧
          x.2.toStorable today id = .ok rows ∧
          Action.store (Operation.run today (.submit x.1 x.2)) s = s.written id rows := by
  unfold Action.store
  rw [run_submit]
  cases hid : x.1.toStorable with
  | error e =>
      refine Or.inl ⟨rfl, fun id hw => ?_⟩
      rw [hw, Wide.toStorable_ofText] at hid
      cases hid
  | ok id =>
      have hw := toStorable_eq_ok_iff.1 hid
      have hinj : ∀ id', x.1 = Wide.ofText id' → id' = id := by
        intro id' hw'
        rw [hw', Wide.toStorable_ofText] at hid
        exact Except.ok.inj hid
      by_cases hfound : s.records.contains id = true
      · refine Or.inl ⟨?_, fun id' hw' fresh => ?_⟩
        · rw [ok_bind_eq, submit_of_contains hfound]
          cases s.loadRecord id <;> rfl
        · rw [hinj id' hw', hfound] at fresh
          cases fresh
      · have fresh : s.records.contains id = false := by simpa using hfound
        cases hstored : x.2.toStorable today id with
        | error e =>
            refine Or.inl ⟨?_, fun id' hw' _ => ⟨e, hinj id' hw' ▸ hstored⟩⟩
            rw [ok_bind_eq, submit_eq x.2 h numbered room fresh, hstored]
            rfl
        | ok rows =>
            obtain ⟨a, hsubmit, _⟩ := submit_of_stored h numbered room fresh hstored
            refine Or.inr ⟨id, rows, hw, fresh, hstored, ?_⟩
            rw [ok_bind_eq, hsubmit]
            rfl

end One

section Steps

variable {s s' : Store} {today : Date} {x : Wide × Submission}

theorem Submitted.unknownKeyOf_eq
    (h : s.Sound) (step : Submitted today x s s') (d : DirectKind) :
    s'.unknownKeyOf d = s.unknownKeyOf d := by
  obtain ⟨key, hkey⟩ := (s.keys (.direct d)).contains_iff.1 (h.unknown d)
  simp only [unknownKeyOf, hkey, step.kept _ _ _ hkey]

/-- A submission that changes nothing adds nothing, and its record is there or not as it is
answered. -/
theorem submitted_of_unchanged
    (h : s.Sound) (numbered : s.Numbered)
    (room : s.HasRoom x.2.mentions)
    (stops : ∀ id, x.1 = Wide.ofText id → s.records.contains id = false →
      ∃ e, x.2.toStorable today id = .error e) :
    Submitted today x s s where
  sound := h
  numbered := numbered
  room more hmore k := by
    have hk : (s.keys k).nextId + ((x.2.mentions k + more k : Nat) : Int) ≤ 0x8000000000000000 :=
      hmore k
    omega
  kept _ _ _ hkey := hkey
  values k key := by
    have hadds : ¬ s.Adds today x k key := by
      rintro ⟨id, rows, hw, fresh, hstored, _⟩
      obtain ⟨e, he⟩ := stops id hw fresh
      rw [he] at hstored
      cases hstored
    simp [hadds]
  other id _ := ⟨rfl, rfl⟩
  own id hw := by
    unfold settled
    rw [outcome_eq h numbered room, hw, Wide.toStorable_ofText, ok_bind_eq]
    by_cases hfound : s.records.contains id = true
    · rw [if_pos hfound]
      cases s.shown id <;> rfl
    · obtain ⟨e, he⟩ := stops id hw (by simpa using hfound)
      rw [if_neg hfound, he]
      rfl

theorem submitted_of_written
    {id : String} {rows : SubmissionRows}
    (h : s.Sound) (numbered : s.Numbered)
    (room : s.HasRoom x.2.mentions)
    (hw : x.1 = Wide.ofText id)
    (fresh : s.records.contains id = false)
    (stored : x.2.toStorable today id = .ok rows) :
    Submitted today x s (s.written id rows) := by
  have hedits := edits_written h numbered room fresh stored
  have hinj : ∀ id', x.1 = Wide.ofText id' → id' = id :=
    fun id' hw' => Wide.ofText_inj.1 (hw'.symm.trans hw)
  refine
    { sound := h.of_edits hedits
      numbered := hedits.invariant (fun _ _ => numbered_of_edit) numbered
      room := ?_
      kept := ?_
      values := ?_
      other := ?_
      own := ?_ }
  · intro more hmore k
    have hk : (s.keys k).nextId + ((x.2.mentions k + more k : Nat) : Int) ≤ 0x8000000000000000 :=
      hmore k
    have hle := (s.keys k).nextId_enrolAll_le (rows.named k)
    have hlength := length_named stored k
    rw [keys_written]
    omega
  · intro k i key hkey
    rw [keys_written]
    exact Table.get?_enrolAll_of_some _ hkey
  · intro k key
    have hadds : s.Adds today x k key ↔ key ∈ rows.named k := by
      constructor
      · rintro ⟨id', rows', hw', _, hstored, hkey⟩
        rw [hinj id' hw', stored] at hstored
        cases hstored
        exact hkey
      · exact fun hkey => ⟨id, rows, hw, fresh, stored, hkey⟩
    rw [keys_written, Table.mem_values_enrolAll, hadds]
  · intro id' hne
    have hne : id' ≠ id := by
      rintro rfl
      exact hne hw
    refine ⟨?_, ?_⟩
    · unfold shown
      rw [loadRecord_written_of_ne h (links_of_toStorable stored) hne]
    · show (s.records.put id _).contains id' = _
      simp [hne]
  · intro id' hw'
    have hid := hinj id' hw'
    subst hid
    unfold settled
    rw [outcome_eq h numbered room, hw, Wide.toStorable_ofText, ok_bind_eq,
      if_neg (by simp [fresh]), stored]
    exact shown_written h fresh (links_of_toStorable stored)

/-- What a submission does to a store with room. -/
theorem submitted
    (today : Date) (x : Wide × Submission)
    (h : s.Sound) (numbered : s.Numbered)
    (room : s.HasRoom x.2.mentions) :
    Submitted today x s (Action.store (Operation.run today (.submit x.1 x.2)) s) := by
  rcases store_submit_eq h numbered room with
    ⟨hstore, hstops⟩ | ⟨id, rows, hw, fresh, hstored, hstore⟩
  · rw [hstore]
    exact submitted_of_unchanged h numbered room hstops
  · rw [hstore]
    exact submitted_of_written h numbered room hw fresh hstored

end Steps

section Lists

variable {s s' : Store} {today : Date} {x y : Wide × Submission}

/-- A submission is answered the same after one of another record. -/
theorem Submitted.outcome_eq
    (h : s.Sound) (numbered : s.Numbered)
    (room : s.HasRoom fun k => x.2.mentions k + y.2.mentions k)
    (step : Submitted today x s s')
    (hne : x.1 ≠ y.1) :
    s'.outcome today y = s.outcome today y := by
  have hroom : s.HasRoom y.2.mentions := room.mono fun k => by omega
  rw [Store.outcome_eq step.sound step.numbered (step.room _ room),
    Store.outcome_eq h numbered hroom]
  refine bind_congr_ok fun id hid => ?_
  have hy := toStorable_eq_ok_iff.1 hid
  have hx : x.1 ≠ Wide.ofText id := fun e => hne (e.trans hy.symm)
  obtain ⟨hshown, hcontains⟩ := step.other id hx
  have hunknown : s'.unknownKeyOf = s.unknownKeyOf := funext fun d => step.unknownKeyOf_eq h d
  rw [hshown, hcontains, hunknown]

/-- A submission adds the same keys after one of another record. -/
theorem Submitted.adds_iff
    (step : Submitted today x s s')
    (hne : x.1 ≠ y.1)
    (k : Kind) (key : NaturalKey String) :
    s'.Adds today y k key ↔ s.Adds today y k key := by
  have hcontains : ∀ id, y.1 = Wide.ofText id →
      s'.records.contains id = s.records.contains id :=
    fun id hy => (step.other id fun e => hne (e.trans hy.symm)).2
  constructor
  · rintro ⟨id, rows, hy, fresh, hrest⟩
    exact ⟨id, rows, hy, hcontains id hy ▸ fresh, hrest⟩
  · rintro ⟨id, rows, hy, fresh, hrest⟩
    exact ⟨id, rows, hy, (hcontains id hy).trans fresh, hrest⟩

/-- What the record of a submission shows is settled the same after one of another record. -/
theorem Submitted.settled_eq
    {id : String}
    (h : s.Sound) (numbered : s.Numbered)
    (room : s.HasRoom fun k => x.2.mentions k + y.2.mentions k)
    (step : Submitted today x s s')
    (hne : x.1 ≠ y.1)
    (hy : y.1 = Wide.ofText id) :
    s'.settled today y id = s.settled today y id := by
  unfold settled
  rw [step.outcome_eq h numbered room hne, (step.other id fun e => hne (e.trans hy.symm)).1]

/-- Submissions of distinct records are answered, and do to the store, what each would be
answered and do if it was the first. -/
theorem allSubmitted
    (today : Date) {subs : List (Wide × Submission)}
    (distinct : subs.Pairwise fun x y => x.1 ≠ y.1)
    (h : s.Sound) (numbered : s.Numbered)
    (room : s.HasRoom (mentionsOf subs)) :
    s.outcomes today subs = subs.map (fun x => (x.1, s.outcome today x)) ∧
      AllSubmitted today subs s (s.after (submissions today subs)) := by
  induction subs generalizing s with
  | nil =>
      refine ⟨rfl, fun _ _ _ hkey => hkey, fun k key => ?_, fun _ _ => rfl, fun x hx => ?_⟩
      · simp [submissions, after]
      · cases hx
  | cons x subs ih =>
      rw [List.pairwise_cons] at distinct
      obtain ⟨hne, distinct⟩ := distinct
      have hroom : s.HasRoom fun k => x.2.mentions k + mentionsOf subs k := by
        refine room.mono fun k => ?_
        simp [mentionsOf]
      have hroom₂ : ∀ y ∈ subs, s.HasRoom fun k => x.2.mentions k + y.2.mentions k := by
        intro y hy
        refine hroom.mono fun k => Nat.add_le_add_left ?_ _
        exact List.single_le_sum (fun _ _ => Nat.zero_le _) _ (List.mem_map.2 ⟨y, hy, rfl⟩)
      have step := submitted today x h numbered (hroom.mono fun k => Nat.le_add_right _ _)
      generalize hs' : Action.store (Operation.run today (.submit x.1 x.2)) s = s' at step
      obtain ⟨houtcomes, rest⟩ := ih distinct step.sound step.numbered (step.room _ hroom)
      have hafter :
          s.after (submissions today (x :: subs)) = s'.after (submissions today subs) := by
        rw [← hs']
        rfl
      rw [hafter]
      refine ⟨?_, ?_, ?_, ?_, ?_⟩
      · have hrest : s'.outcomes today subs = subs.map fun y => (y.1, s.outcome today y) := by
          rw [houtcomes]
          refine List.map_congr_left fun y hy => ?_
          rw [step.outcome_eq h numbered (hroom₂ y hy) (hne y hy)]
        rw [List.map_cons, ← hrest, ← hs']
        rfl
      · exact fun k id key hkey => rest.kept k id key (step.kept k id key hkey)
      · intro k key
        have hadds : (∃ y ∈ subs, s'.Adds today y k key) ↔ ∃ y ∈ subs, s.Adds today y k key := by
          constructor
          · rintro ⟨y, hy, hadds⟩
            exact ⟨y, hy, (step.adds_iff (hne y hy) k key).1 hadds⟩
          · rintro ⟨y, hy, hadds⟩
            exact ⟨y, hy, (step.adds_iff (hne y hy) k key).2 hadds⟩
        rw [rest.values, step.values, hadds]
        simp [or_assoc]
      · intro id hid
        rw [rest.other id fun y hy => hid y (List.mem_cons_of_mem x hy)]
        exact (step.other id (hid x (by simp))).1
      · intro y hy id hw
        rcases List.mem_cons.mp hy with rfl | hy
        · rw [rest.other id fun z hz e => hne z hz (hw.trans e.symm)]
          exact step.own id hw
        · rw [rest.own y hy id hw]
          exact step.settled_eq h numbered (hroom₂ y hy) (hne y hy) hw

end Lists

/-- In whatever order submissions of distinct records come, each of them has the same outcome,
the same keys are held, the unknown rows are the same, and every record shows the same, as long
as there are ids left for all the rows that they mention. -/
theorem submissions_perm
    (steps : List (Date × Operation)) (today : Date)
    {subs subs' : List (Wide × Submission)}
    (distinct : subs.Pairwise fun x y => x.1 ≠ y.1)
    (perm : subs.Perm subs')
    (room : (seeded.after steps).HasRoom (mentionsOf subs)) :
    let s := seeded.after steps
    let t := s.after (submissions today subs)
    let t' := s.after (submissions today subs')
    (s.outcomes today subs).Perm (s.outcomes today subs') ∧
      (∀ k key, key ∈ (t.keys k).values ↔ key ∈ (t'.keys k).values) ∧
      (∀ d, (t.keys (.direct d)).get? unknownId = (t'.keys (.direct d)).get? unknownId) ∧
      ∀ id, t.shown id = t'.shown id := by
  intro s t t'
  have h : s.Sound := sound_after steps
  have numbered : s.Numbered := numbered_after steps
  have distinct' : subs'.Pairwise fun x y => x.1 ≠ y.1 :=
    (perm.pairwise_iff fun hne => Ne.symm hne).1 distinct
  have room' : s.HasRoom (mentionsOf subs') := by
    refine room.mono fun k => ?_
    exact Nat.le_of_eq (perm.symm.map _).sum_nat
  obtain ⟨houtcomes, hall⟩ := allSubmitted today distinct h numbered room
  obtain ⟨houtcomes', hall'⟩ := allSubmitted today distinct' h numbered room'
  refine ⟨?_, ?_, ?_, ?_⟩
  · rw [houtcomes, houtcomes']
    exact perm.map _
  · intro k key
    rw [hall.values, hall'.values]
    simp only [perm.mem_iff]
  · intro d
    obtain ⟨key, hkey⟩ := (s.keys (.direct d)).contains_iff.1 (h.unknown d)
    rw [hall.kept _ _ _ hkey, hall'.kept _ _ _ hkey]
  · intro id
    by_cases hid : ∃ x ∈ subs, x.1 = Wide.ofText id
    · obtain ⟨x, hx, hw⟩ := hid
      rw [hall.own x hx id hw, hall'.own x (perm.mem_iff.1 hx) id hw]
    · have hother : ∀ x ∈ subs, x.1 ≠ Wide.ofText id := fun x hx hw => hid ⟨x, hx, hw⟩
      rw [hall.other id hother, hall'.other id fun x hx => hother x (perm.mem_iff.2 hx)]

/-- Two new records, of which one names the director and the genre of the other, and a genre
that is there already. -/
theorem submissions_swap :
    let x : Wide × Submission :=
      ("first",
        { direct := ⟨some { name := "New director" }, none, none, none⟩
          attached := ⟨[⟨{ name := "Drama" }, false⟩, ⟨{ name := "Tragedy" }, false⟩], []⟩ })
    let y : Wide × Submission :=
      ("second",
        { direct := ⟨some { name := "New director" }, some { name := "Unknown Studio" }, none, none⟩
          attached := ⟨[⟨{ name := "Tragedy" }, true⟩], []⟩ })
    let s := seeded.after [(.epoch, .enrol (.attached .genre) { name := "Drama" })]
    [x, y].Pairwise (fun x y => x.1 ≠ y.1) ∧
      [x, y].Perm [y, x] ∧
      s.HasRoom (mentionsOf [x, y]) ∧
      ∀ id,
        (s.after (submissions .epoch [x, y])).shown id
          = (s.after (submissions .epoch [y, x])).shown id := by
  intro x y s
  have hdistinct : [x, y].Pairwise fun x y => x.1 ≠ y.1 :=
    List.pairwise_pair.2 (by decide)
  have hperm : [x, y].Perm [y, x] := List.Perm.swap y x []
  have hroom : s.HasRoom (mentionsOf [x, y]) := hasRoom_after _ _ (by decide)
  exact ⟨hdistinct, hperm, hroom, (submissions_perm _ .epoch hdistinct hperm hroom).2.2.2⟩

end Store
end CardCatalog
