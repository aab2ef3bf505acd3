import CardCatalog.Proofs.Portrait
import CardCatalog.Proofs.ValidForms

/-!
# What stops a request

After any run from a fresh store, a request to create, update or delete a record, or to add
links to it, stops only at the checks of what it stores.  The rules of the tables are met
whatever it names: the rows exist that a record refers to, since they are enrolled or unknown;
and no row is attached twice, since one is kept of each key, and old attachments go first.

Results: when exactly such a request stops, and when it finds no record
(`stopsOnlyAtChecks_after`).
-/

namespace CardCatalog

open Calendar (Date)
open Text (Wide)
open Validation (Rule)

section Checks

theorem exists_firstFault?_iff {cs : List Check} :
    (∃ e, firstFault? cs = some e) ↔
      (∃ w, .text w ∈ cs ∧ w.text? = none) ∨ ∃ n, .integer n ∈ cs ∧ ¬ Number.InRange n := by
  rw [← Option.isSome_iff_exists, Option.isSome_iff_ne_none, ne_eq, firstFault?_eq_none_iff]
  constructor
  · intro h
    obtain ⟨c, h⟩ := Classical.not_forall.1 h
    obtain ⟨hc, hfault⟩ := Classical.not_imp.1 h
    cases c with
    | text w => exact Or.inl ⟨w, hc, by simpa [Check.fault?] using hfault⟩
    | integer n => exact Or.inr ⟨n, hc, by simpa [Check.fault?] using hfault⟩
  · rintro (⟨w, hw, hnone⟩ | ⟨n, hn, hrange⟩) h
    · have := h _ hw
      simp [Check.fault?, hnone] at this
    · have := h _ hn
      simp [Check.fault?, hrange] at this

/-- A check fails for a text that holds a half, or for an integer out of range. -/
theorem eq_of_firstFault?
    {cs : List Check} {e : Fault}
    (h : firstFault? cs = some e) :
    e = .outOfRange ∨ ∃ w, w.text? = none ∧ e = .unstorable w := by
  obtain ⟨c, _, hfault⟩ := List.exists_of_findSome?_eq_some h
  unfold Check.fault? at hfault
  cases c with
  | text w =>
      dsimp only at hfault
      split at hfault
      · rename_i hw
        exact Or.inr ⟨w, hw, (Option.some.inj hfault).symm⟩
      · cases hfault
  | integer n =>
      dsimp only at hfault
      split at hfault
      · cases hfault
      · exact Or.inl (Option.some.inj hfault).symm

/-- Where all texts are free of halves, only integers out of range are left to stop at. -/
theorem firstFault?_of_texts
    {cs : List Check}
    (texts : ∀ w, .text w ∈ cs → w.text? ≠ none) (e : Fault) :
    firstFault? cs = some e ↔
      (∃ n, .integer n ∈ cs ∧ ¬ Number.InRange n) ∧ e = .outOfRange := by
  have hfault : ∀ e, firstFault? cs = some e → e = .outOfRange := by
    intro e he
    obtain ⟨c, hc, hc'⟩ := List.exists_of_findSome?_eq_some he
    cases c with
    | text w => simp [Check.fault?, texts w hc] at hc'
    | integer n =>
        rcases eq_of_firstFault? he with hrange | ⟨w, _, rfl⟩
        · exact hrange
        · by_cases hn : Number.InRange n <;> simp [Check.fault?, hn] at hc'
  constructor
  · intro he
    refine ⟨?_, hfault e he⟩
    rcases exists_firstFault?_iff.1 ⟨e, he⟩ with ⟨w, hw, hnone⟩ | hn
    · exact absurd hnone (texts w hw)
    · exact hn
  · rintro ⟨hn, rfl⟩
    obtain ⟨e, he⟩ := exists_firstFault?_iff.2 (Or.inr hn)
    rw [he, hfault e he]

theorem integer_notMem_mentionedChecks
    {direct : PerDirect (Option (Candidate Wide))}
    {attached : PerAttached (List (AttachedCandidate Wide))} {n : Int} :
    .integer n ∉ mentionedChecks direct attached := by
  simp [mentionedChecks, Candidate.checks]

theorem integer_mem_checks_submission {sub : Submission} {n : Int} :
    .integer n ∈ sub.checks ↔ n ∈ sub.details.integers := by
  simp [Submission.checks, integer_notMem_mentionedChecks, LinkDraft.checks]

theorem integer_mem_checks_resubmission {sub : Resubmission} {n : Int} :
    .integer n ∈ sub.checks ↔ n ∈ sub.details.integers := by
  simp [Resubmission.checks, integer_notMem_mentionedChecks]

end Checks

namespace Store

section Requests

variable {s : Store} {today : Date} {id : String}

/-- A submission of a new record stops at its checks. -/
theorem stopsAt_submit
    {sub : Submission}
    (h : s.Sound) (numbered : s.Numbered)
    (room : s.HasRoom sub.mentions)
    (fresh : s.records.contains id = false)
    (numbers : ∀ l ∈ sub.links, l.HasNumber) :
    StopsAt sub.checks (s.submit today id sub) := by
  rw [submit_eq sub h numbered room fresh]
  refine (stopsAt_submission numbers today id).bind_ok fun rows hrows => ?_
  have hshown := shown_written h fresh (links_of_toStorable hrows)
  obtain ⟨found?, hload, _⟩ := map_eq_ok_iff.1 hshown
  exact ⟨_, bind_eq_ok_iff.2 ⟨found?, hload, rfl⟩⟩

/-- A resubmission of a record that exists stops at its checks. -/
theorem stopsAt_resubmit
    {sub : Resubmission} {old : RecordRow}
    (h : s.Sound) (numbered : s.Numbered)
    (room : s.HasRoom sub.mentions)
    (hold : s.records.get? id = some old) :
    StopsAt sub.checks (s.resubmit today id sub) := by
  rw [resubmit_eq sub h numbered room hold]
  refine (stopsAt_resubmission sub today old).bind_ok fun rows _ => ?_
  obtain ⟨a, hload⟩ := exists_loadRecord_rewritten id h rows
  exact ⟨_, bind_eq_ok_iff.2 ⟨some a, hload, rfl⟩⟩

/-- Links that are added to a record stop at the checks of those that are new to it. -/
theorem stopsAt_addLinks
    {links : List LinkDraft} {row : RecordRow}
    (numbers : ∀ l ∈ links, l.HasNumber)
    (hrow : s.records.get? id = some row) :
    StopsAt ((s.freshLinks id links).flatMap LinkDraft.checks) (s.addLinks today id links) := by
  have hnumbers : ∀ l ∈ s.freshLinks id links, l.HasNumber :=
    fun l hl => numbers l ((freshBy_sublist _ _ _).subset hl)
  rw [addLinks_of_some hrow]
  split
  · rename_i hempty
    rw [List.isEmpty_iff.1 hempty]
    exact stopsAt_ok _
  · refine StopsAt.map ?_ _
    exact (stopsAt_links hnumbers id).bind_ok fun rows _ => ⟨_, rfl⟩

end Requests

/-- A text is the id of a record. -/
def Holds (s : Store) (w : Wide) : Prop :=
  ∃ id, w = Wide.ofText id ∧ s.records.contains id = true

/-- A text may be the id of a record, but there is none. -/
def Lacks (s : Store) (w : Wide) : Prop :=
  ∃ id, w = Wide.ofText id ∧ s.records.contains id = false

section Runs

variable {s : Store} {today : Date}

theorem holds_ofText_iff {id : String} :
    s.Holds (Wide.ofText id) ↔ s.records.contains id = true := by
  constructor
  · rintro ⟨id', hid, hfound⟩
    rwa [Wide.ofText_inj.1 hid]
  · intro hfound
    exact ⟨id, rfl, hfound⟩

theorem lacks_ofText_iff {id : String} :
    s.Lacks (Wide.ofText id) ↔ s.records.contains id = false := by
  constructor
  · rintro ⟨id', hid, hfound⟩
    rwa [Wide.ofText_inj.1 hid]
  · intro hfound
    exact ⟨id, rfl, hfound⟩

/-- What needs an id stops at it, or goes on with the text that it is. -/
theorem toStorable_bind_eq_error_iff
    {α : Type} {w : Wide} {f : String → Except Fault α} {e : Fault} :
    (w.toStorable >>= f) = .error e ↔
      firstFault? [.text w] = some e ∨ ∃ id, w = Wide.ofText id ∧ f id = .error e := by
  rw [bind_eq_error_iff, stopsAt_text w e]
  simp only [toStorable_eq_ok_iff]

theorem toStorable_bind_eq_ok_iff
    {α : Type} {w : Wide} {f : String → Except Fault α} {a : α} :
    (w.toStorable >>= f) = .ok a ↔ ∃ id, w = Wide.ofText id ∧ f id = .ok a := by
  rw [bind_eq_ok_iff]
  simp only [toStorable_eq_ok_iff]

/-- Every record of a sound store is found. -/
theorem Sound.exists_loadRecord
    {id : String}
    (h : s.Sound) (hid : s.records.contains id = true) :
    ∃ a, s.loadRecord id = .ok (some a) := by
  obtain ⟨row, hrow⟩ := s.records.contains_iff.1 hid
  obtain ⟨a, ha⟩ := h.exists_assemble hrow
  refine ⟨a, ?_⟩
  rw [loadRecord_of_some hrow, ha]
  rfl

theorem run_submit_eq_error_iff
    {w : Wide} {sub : Submission}
    (h : s.Sound) (numbered : s.Numbered)
    (room : s.HasRoom sub.mentions)
    (text : ∃ id, w = Wide.ofText id)
    (numbers : ∀ l ∈ sub.links, l.HasNumber) (e : Fault) :
    Operation.run today (.submit w sub) s = .error e ↔
      s.Lacks w ∧ firstFault? sub.checks = some e := by
  obtain ⟨id, rfl⟩ := text
  rw [run_submit, Wide.toStorable_ofText, ok_bind_eq, map_eq_error_iff, lacks_ofText_iff]
  cases hid : s.records.contains id with
  | true =>
      obtain ⟨a, ha⟩ := h.exists_loadRecord hid
      rw [submit_of_contains hid, ha]
      simp [Except.map]
  | false =>
      rw [stopsAt_submit h numbered room hid numbers e]
      simp

theorem run_resubmit_eq_error_iff
    {sub : Resubmission}
    (h : s.Sound) (numbered : s.Numbered)
    (room : s.HasRoom sub.mentions) (w : Wide) (e : Fault) :
    Operation.run today (.resubmit w sub) s = .error e ↔
      firstFault? [.text w] = some e ∨ s.Holds w ∧ firstFault? sub.checks = some e := by
  have hresubmit : ∀ id, s.resubmit today id sub = .error e ↔
      s.records.contains id = true ∧ firstFault? sub.checks = some e := by
    intro id
    cases hid : s.records.contains id with
    | true =>
        obtain ⟨old, hold⟩ := s.records.contains_iff.1 hid
        rw [stopsAt_resubmit h numbered room hold e]
        simp
    | false =>
        rw [resubmit_of_not_contains hid]
        simp
  rw [run_resubmit, toStorable_bind_eq_error_iff]
  simp only [map_eq_error_iff, hresubmit, Holds, ← and_assoc, exists_and_right]

/-- A resubmission of a record that exists is answered with it. -/
theorem resubmit_ne_none
    {id : String} {sub : Resubmission} {s' : Store}
    (h : s.Sound) (numbered : s.Numbered)
    (room : s.HasRoom sub.mentions)
    (hid : s.records.contains id = true) :
    s.resubmit today id sub ≠ .ok (none, s') := by
  obtain ⟨old, hold⟩ := s.records.contains_iff.1 hid
  rw [resubmit_eq sub h numbered room hold]
  intro hnone
  obtain ⟨rows, _, hnone⟩ := bind_eq_ok_iff.1 hnone
  obtain ⟨a, ha⟩ := exists_loadRecord_rewritten id h rows
  rw [ha] at hnone
  cases hnone

theorem run_resubmit_eq_none_iff
    {sub : Resubmission}
    (h : s.Sound) (numbered : s.Numbered)
    (room : s.HasRoom sub.mentions) (w : Wide) (s' : Store) :
    Operation.run today (.resubmit w sub) s = .ok (.record none, s') ↔
      s.Lacks w ∧ s' = s := by
  rw [run_resubmit, toStorable_bind_eq_ok_iff]
  constructor
  · rintro ⟨id, rfl, hrun⟩
    obtain ⟨⟨found?, t⟩, hresubmit, hanswer⟩ := map_eq_ok_iff.1 hrun
    cases hanswer
    cases hid : s.records.contains id with
    | true => exact absurd hresubmit (resubmit_ne_none h numbered room hid)
    | false =>
        rw [resubmit_of_not_contains hid] at hresubmit
        cases hresubmit
        exact ⟨⟨id, rfl, hid⟩, rfl⟩
  · rintro ⟨⟨id, rfl, hid⟩, rfl⟩
    refine ⟨id, rfl, ?_⟩
    rw [resubmit_of_not_contains hid]
    rfl

theorem run_addLinks (w : Wide) (links : List LinkDraft) :
    Operation.run today (.addLinks w links) s
      = (w.toStorable >>= fun id =>
          (s.addLinks today id links).map fun a => (.added a.1, a.2)) := by
  show (w.toStorable >>= fun id => s.addLinks today id links >>= fun a => _) = _
  refine bind_congr fun id => ?_
  cases s.addLinks today id links <;> rfl

theorem run_addLinks_eq_error_iff
    {links : List LinkDraft}
    (numbers : ∀ l ∈ links, l.HasNumber) (w : Wide) (e : Fault) :
    Operation.run today (.addLinks w links) s = .error e ↔
      firstFault? [.text w] = some e ∨
        ∃ id, w = Wide.ofText id ∧ s.records.contains id = true ∧
          firstFault? ((s.freshLinks id links).flatMap LinkDraft.checks) = some e := by
  have hadd : ∀ id, s.addLinks today id links = .error e ↔
      s.records.contains id = true ∧
        firstFault? ((s.freshLinks id links).flatMap LinkDraft.checks) = some e := by
    intro id
    unfold Table.contains
    cases hrow : s.records.get? id with
    | none =>
        rw [addLinks_of_none hrow]
        simp
    | some row =>
        rw [stopsAt_addLinks numbers hrow e]
        simp
  rw [run_addLinks, toStorable_bind_eq_error_iff]
  simp only [map_eq_error_iff, hadd]

/-- Links that are added to a record that exists are counted. -/
theorem addLinks_ne_none
    {id : String} {links : List LinkDraft} {row : RecordRow} {s' : Store}
    (hrow : s.records.get? id = some row) :
    s.addLinks today id links ≠ .ok (none, s') := by
  intro hnone
  obtain ⟨_, _, hcount, _⟩ := (addLinks_eq_ok_iff hrow).1 hnone
  cases hcount

theorem run_addLinks_eq_none_iff
    (links : List LinkDraft) (w : Wide) (s' : Store) :
    Operation.run today (.addLinks w links) s = .ok (.added none, s') ↔
      s.Lacks w ∧ s' = s := by
  rw [run_addLinks, toStorable_bind_eq_ok_iff]
  constructor
  · rintro ⟨id, rfl, hrun⟩
    obtain ⟨⟨count?, t⟩, hadd, hanswer⟩ := map_eq_ok_iff.1 hrun
    cases hanswer
    cases hrow : s.records.get? id with
    | some row => exact absurd hadd (addLinks_ne_none hrow)
    | none =>
        rw [addLinks_of_none hrow] at hadd
        cases hadd
        refine ⟨⟨id, rfl, ?_⟩, rfl⟩
        rw [Table.contains, hrow, Option.isSome_none]
  · rintro ⟨⟨id, rfl, hid⟩, rfl⟩
    refine ⟨id, rfl, ?_⟩
    have hrow : s'.records.get? id = none := by simpa [Table.contains] using hid
    rw [addLinks_of_none hrow]
    rfl

theorem run_deleteRecord_eq_error_iff (w : Wide) (e : Fault) :
    Operation.run today (.deleteRecord w) s = .error e ↔ firstFault? [.text w] = some e := by
  show w.toStorable.map _ = _ ↔ _
  rw [map_eq_error_iff]
  exact stopsAt_text w e

end Runs

/-- Operations that write records, where they are valid and there is room for their rows. -/
inductive Writes (s : Store) : Operation → Prop
  | submit
      {otherwise : Validation.IssueKind} {x : Wide × Submission}
      (valid : (Rule.submission otherwise).Passes x)
      (room : s.HasRoom x.2.mentions) : Writes s (.submit x.1 x.2)
  | resubmit
      {sub : Resubmission} (w : Wide)
      (room : s.HasRoom sub.mentions) : Writes s (.resubmit w sub)
  | addLinks
      {links : List LinkDraft} (w : Wide)
      (numbers : ∀ l ∈ links, l.HasNumber) : Writes s (.addLinks w links)
  | deleteRecord (w : Wide) : Writes s (.deleteRecord w)

/-- What writes records stops at the checks of what it stores, and nowhere else. -/
structure StopsOnlyAtChecks (today : Date) (s : Store) : Prop where
  /-- A valid submission stops if its record is new and one of its checks fails. -/
  create : ∀ {otherwise x}, (Rule.submission otherwise).Passes x → s.HasRoom x.2.mentions →
    ∀ e, Operation.run today (.submit x.1 x.2) s = .error e ↔
      s.Lacks x.1 ∧ firstFault? x.2.checks = some e
  /-- If its texts are free of halves, only its integers are left. -/
  createWhole : ∀ {otherwise x}, (Rule.submission otherwise).Passes x → s.HasRoom x.2.mentions →
    (∀ w, .text w ∈ x.2.checks → w.text? ≠ none) →
    ∀ e, Operation.run today (.submit x.1 x.2) s = .error e ↔
      s.Lacks x.1 ∧ (∃ n ∈ x.2.details.integers, ¬ Number.InRange n) ∧ e = .outOfRange
  /-- A resubmission stops at its id, or if its record exists and one of its checks fails. -/
  update : ∀ {sub : Resubmission}, s.HasRoom sub.mentions →
    ∀ w e, Operation.run today (.resubmit w sub) s = .error e ↔
      firstFault? [.text w] = some e ∨ s.Holds w ∧ firstFault? sub.checks = some e
  /-- If its texts are free of halves, only its integers are left. -/
  updateWhole : ∀ {sub : Resubmission}, s.HasRoom sub.mentions →
    (∀ w, .text w ∈ sub.checks → w.text? ≠ none) →
    ∀ id e, Operation.run today (.resubmit (Wide.ofText id) sub) s = .error e ↔
      s.records.contains id = true ∧ (∃ n ∈ sub.details.integers, ¬ Number.InRange n) ∧
        e = .outOfRange
  /-- A resubmission answers no record exactly if there is none. -/
  updateMissing : ∀ {sub : Resubmission}, s.HasRoom sub.mentions →
    ∀ w s', Operation.run today (.resubmit w sub) s = .ok (.record none, s') ↔
      s.Lacks w ∧ s' = s
  /-- Links whose sizes are numbers stop at the id, or if the record exists and a check of those
  fails that are new to it. -/
  addLinks : ∀ {links : List LinkDraft}, (∀ l ∈ links, l.HasNumber) →
    ∀ w e, Operation.run today (.addLinks w links) s = .error e ↔
      firstFault? [.text w] = some e ∨
        ∃ id, w = Wide.ofText id ∧ s.records.contains id = true ∧
          firstFault? ((s.freshLinks id links).flatMap LinkDraft.checks) = some e
  /-- No number of links is answered exactly if there is no record. -/
  addLinksMissing : ∀ links w s',
    Operation.run today (.addLinks w links) s = .ok (.added none, s') ↔ s.Lacks w ∧ s' = s
  /-- Deleting stops at the id alone. -/
  delete : ∀ w e, Operation.run today (.deleteRecord w) s = .error e ↔
    firstFault? [.text w] = some e
  /-- No rule of the tables is broken, and no reference dangles. -/
  unbroken : ∀ {op}, s.Writes op → ∀ e, op.run today s = .error e →
    e = .outOfRange ∨ ∃ w, w.text? = none ∧ e = .unstorable w

section Results

variable {s : Store} {today : Date}

/-- An operation that writes records stops at a check, if it stops. -/
theorem eq_of_run_eq_error
    {op : Operation} {e : Fault}
    (h : s.Sound) (numbered : s.Numbered)
    (writes : s.Writes op)
    (stopped : op.run today s = .error e) :
    e = .outOfRange ∨ ∃ w, w.text? = none ∧ e = .unstorable w := by
  cases writes with
  | submit valid room =>
      obtain ⟨text, numbers⟩ := Rule.id_and_numbers_of_submission valid
      exact eq_of_firstFault?
        ((run_submit_eq_error_iff h numbered room text numbers e).1 stopped).2
  | resubmit w room =>
      rcases (run_resubmit_eq_error_iff h numbered room w e).1 stopped with hid | ⟨_, hsub⟩
      · exact eq_of_firstFault? hid
      · exact eq_of_firstFault? hsub
  | addLinks w numbers =>
      rcases (run_addLinks_eq_error_iff numbers w e).1 stopped with hid | ⟨_, _, _, hlinks⟩
      · exact eq_of_firstFault? hid
      · exact eq_of_firstFault? hlinks
  | deleteRecord w => exact eq_of_firstFault? ((run_deleteRecord_eq_error_iff w e).1 stopped)

/-- After any run, what writes records stops at the checks of what it stores, and nowhere
else. -/
theorem stopsOnlyAtChecks_after (steps : List (Date × Operation)) (today : Date) :
    StopsOnlyAtChecks today (seeded.after steps) := by
  have h : (seeded.after steps).Sound := sound_after steps
  have numbered : (seeded.after steps).Numbered := numbered_after steps
  refine
    { create := ?create
      createWhole := ?createWhole
      update := fun room w e => run_resubmit_eq_error_iff h numbered room w e
      updateWhole := ?updateWhole
      updateMissing := fun room w s' => run_resubmit_eq_none_iff h numbered room w s'
      addLinks := fun numbers w e => run_addLinks_eq_error_iff numbers w e
      addLinksMissing := fun links w s' => run_addLinks_eq_none_iff links w s'
      delete := fun w e => run_deleteRecord_eq_error_iff w e
      unbroken := fun writes e stopped => eq_of_run_eq_error h numbered writes stopped }
  case create =>
    intro otherwise x valid room e
    obtain ⟨text, numbers⟩ := Rule.id_and_numbers_of_submission valid
    exact run_submit_eq_error_iff h numbered room text numbers e
  case createWhole =>
    intro otherwise x valid room texts e
    obtain ⟨text, numbers⟩ := Rule.id_and_numbers_of_submission valid
    rw [run_submit_eq_error_iff h numbered room text numbers e, firstFault?_of_texts texts]
    simp only [integer_mem_checks_submission]
  case updateWhole =>
    intro sub room texts id e
    have hid : firstFault? [.text (Wide.ofText id)] ≠ some e := by
      simp [firstFault?, Check.fault?]
    rw [run_resubmit_eq_error_iff h numbered room, or_iff_right hid, holds_ofText_iff,
      firstFault?_of_texts texts]
    simp only [integer_mem_checks_resubmission]

/-- A valid submission of a new record stops at an integer that is out of range. -/
theorem submit_duration_out_of_range :
    let x : Wide × Submission :=
      ("x", { details := { title := untitled, duration := 0x8000000000000000 } })
    (Rule.submission .modelType).Passes x ∧
      seeded.HasRoom x.2.mentions ∧
      (∀ w, .text w ∈ x.2.checks → w.text? ≠ none) ∧
      Operation.run .epoch (.submit x.1 x.2) seeded = .error .outOfRange := by
  intro x
  have valid : (Rule.submission .modelType).Passes x :=
    ⟨[], .object [("id", .text "x"), ("duration", .int 0x8000000000000000)], rfl⟩
  have room : seeded.HasRoom x.2.mentions := by decide
  have texts : HasWholeTexts x.2.checks := by decide
  refine ⟨valid, room, texts, ?_⟩
  refine ((stopsOnlyAtChecks_after [] .epoch).createWhole valid room texts .outOfRange).2 ?_
  exact ⟨⟨"x", rfl, rfl⟩, ⟨0x8000000000000000, by decide, by decide⟩, rfl⟩

/-- A valid submission of a new record stops at half of a pair, though its integers are all in
range. -/
theorem submit_half_in_range :
    let x : Wide × Submission := ("x", { modifiedBy := ⟨[.half 0x7ff]⟩ })
    (Rule.submission .modelType).Passes x ∧
      seeded.HasRoom x.2.mentions ∧
      seeded.Lacks x.1 ∧
      (¬ ∃ n ∈ x.2.details.integers, ¬ Number.InRange n) ∧
      Operation.run .epoch (.submit x.1 x.2) seeded
        = .error (.unstorable x.2.modifiedBy) := by
  intro x
  refine ⟨?_, by decide, ⟨"x", rfl, rfl⟩, by decide, rfl⟩
  exact ⟨[], .object [("id", .text "x"), ("modified_by", .text ⟨[.half 0x7ff]⟩)], rfl⟩

end Results

end Store
end CardCatalog
