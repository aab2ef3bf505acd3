import CardCatalog.Proofs.NoTrace

/-!
# Transactions of many steps

Operations, each on a day of its own, can be run in one transaction, or one by one on sessions of
their own.  In one transaction an operation finds what the operations before it have written,
though nothing of it is committed yet; one by one it finds what was committed.  A submission, which
is a unit of work of its own one by one, joins the transaction.  The two ways differ in what
becomes of a fault: in one transaction it undoes all operations, and one by one only its own.

Results: one by one, either all operations answer, or there is a first one that stops
(`answersEach_or_stopsAfter`).  One transaction tells the same up to there, and commits nothing
before its end; it leaves the same store if it is kept and none stops, and else the store that it
began with (`transaction_eq_one_by_one`).
-/

namespace CardCatalog

open Calendar (Date)

section OneByOne

variable {s : Store} {ops : List (Date × Operation)} {answers : List Answer}

/-- Operations as steps, each on its own. -/
def asSteps (ops : List (Date × Operation)) : List Step :=
  ops.map fun x => .operation x.1 x.2

/-- Whether operations all answer one by one, with the given answers. -/
def AnswersEach (s : Store) (ops : List (Date × Operation)) (answers : List Answer) : Prop :=
  replies s (asSteps ops) = answers.map Reply.answered

/-- Whether one by one, operations answer up to one that stops. -/
def StopsAfter
    (s : Store) (ops : List (Date × Operation)) (answers : List Answer) (fault : Fault) : Prop :=
  ∃ before today op later,
    ops = before ++ (today, op) :: later ∧
    AnswersEach s before answers ∧
    ((Step.operation today op).run (settle s (asSteps before))).1 = .stopped fault

section FirstStep

variable {t : Store} {today : Date} {op : Operation} {a : Answer}

theorem Operation.reply_eq_stopped_iff
    {fault : Fault} :
    (op.reply today s).1 = .stopped fault ↔ op.run today s = .error fault := by
  cases hrun : op.run today s with
  | error fault' => simp [reply_of_error hrun]
  | ok found => simp [reply_of_ok hrun]

theorem settle_cons_of_answered
    (h : op.run today s = .ok (a, t)) (ops : List (Date × Operation)) :
    settle s (asSteps ((today, op) :: ops)) = settle t (asSteps ops) := by
  show settle (op.reply today s).2 _ = _
  rw [Operation.reply_of_ok h]
  rfl

theorem answersEach_cons_iff
    (h : op.run today s = .ok (a, t)) :
    AnswersEach s ((today, op) :: ops) answers ↔
      ∃ rest, answers = a :: rest ∧ AnswersEach t ops rest := by
  have hreplies : replies s (asSteps ((today, op) :: ops))
      = .answered a :: replies t (asSteps ops) := by
    show (op.reply today s).1 :: replies (op.reply today s).2 _ = _
    rw [Operation.reply_of_ok h]
    rfl
  unfold AnswersEach
  rw [hreplies, eq_comm, List.map_eq_cons_iff]
  constructor
  · rintro ⟨_, rest, rfl, ha, hrest⟩
    cases ha
    exact ⟨rest, rfl, hrest.symm⟩
  · rintro ⟨rest, rfl, hrest⟩
    exact ⟨a, rest, rfl, rfl, hrest.symm⟩

theorem not_answersEach_of_error
    {fault : Fault}
    (h : op.run today s = .error fault) :
    ¬ AnswersEach s ((today, op) :: ops) answers := by
  intro hanswers
  obtain ⟨_, _, _, hfirst, _⟩ := List.map_eq_cons_iff.1 hanswers.symm
  cases hfirst.trans (Operation.reply_eq_stopped_iff.2 h)

end FirstStep

/-- One by one, all operations answer, or there is a first one that stops. -/
theorem answersEach_or_stopsAfter (s : Store) (ops : List (Date × Operation)) :
    (∃ answers, AnswersEach s ops answers) ∨ ∃ answers fault, StopsAfter s ops answers fault := by
  induction ops generalizing s with
  | nil => exact Or.inl ⟨[], rfl⟩
  | cons x ops ih =>
      obtain ⟨today, op⟩ := x
      cases hrun : op.run today s with
      | error fault =>
          exact Or.inr
            ⟨[], fault, [], today, op, ops, rfl, rfl, Operation.reply_eq_stopped_iff.2 hrun⟩
      | ok found =>
          obtain ⟨a, t⟩ := found
          rcases ih t with ⟨answers, answered⟩ | ⟨answers, fault, before, day, next, later, h⟩
          · exact Or.inl ⟨a :: answers, (answersEach_cons_iff hrun).2 ⟨answers, rfl, answered⟩⟩
          · obtain ⟨rfl, answered, stopped⟩ := h
            refine Or.inr ⟨a :: answers, fault, (today, op) :: before, day, next, later, rfl, ?_, ?_⟩
            · exact (answersEach_cons_iff hrun).2 ⟨answers, rfl, answered⟩
            · rw [settle_cons_of_answered hrun]
              exact stopped

/-- Operations that answer one by one answer the same together, and leave the same store. -/
theorem runAll_of_answersEach
    (h : AnswersEach s ops answers) :
    runAll s (asActions ops) = ⟨answers, none, some (settle s (asSteps ops))⟩ := by
  induction ops generalizing s answers with
  | nil =>
      cases List.map_eq_nil_iff.1 h.symm
      rfl
  | cons x ops ih =>
      obtain ⟨today, op⟩ := x
      cases hrun : op.run today s with
      | error fault => exact absurd h (not_answersEach_of_error hrun)
      | ok found =>
          obtain ⟨a, t⟩ := found
          -- the next operation starts from what the next step finds
          obtain ⟨rest, rfl, hrest⟩ := (answersEach_cons_iff hrun).1 h
          have hnext := ih hrest
          unfold asActions at hnext ⊢
          rw [List.map_cons, runAll, hrun, settle_cons_of_answered hrun]
          dsimp only
          rw [hnext]

/-- Operations of which one stops answer together what they answer before it, and stop. -/
theorem runAll_of_stopsAfter
    {fault : Fault}
    (h : StopsAfter s ops answers fault) :
    runAll s (asActions ops) = ⟨answers, some fault, none⟩ := by
  obtain ⟨before, today, op, later, rfl, answered, stopped⟩ := h
  have hbefore := runAll_of_answersEach answered
  have hstore : (runAll s (asActions before)).store? = some (settle s (asSteps before)) := by
    rw [hbefore]
  unfold asActions at hbefore hstore ⊢
  rw [List.map_append, List.map_cons, runAll_append hstore, hbefore, runAll,
    Operation.reply_eq_stopped_iff.1 stopped]
  exact congrArg (Outcome.mk · (some fault) none) (List.append_nil answers)

/-- In a transaction, each operation comes to what it does to the store that the session sees, which
nobody else sees.  So operations in one transaction tell what they tell one by one, up to the first
that stops, and until the transaction ends nothing is committed.  If none stops and the transaction
is kept, they leave the same store; if one stops, or if the transaction is rolled back at the end,
they leave the store as it was.  One of the two is the case: none stops, or there is a first one. -/
theorem transaction_eq_one_by_one (s : Store) (ops : List (Date × Operation)) :
    (∀ today op t, (Operation.perform today op).Performs t (op.run today t)) ∧
    (∀ answers, AnswersEach s ops answers →
      (∀ committed, Work.inTurn (asWorks ops) ⟨committed, some s⟩
        = (.ok answers, ⟨committed, some (settle s (asSteps ops))⟩)) ∧
      (Step.transaction true ops).run s = (.ended true answers none, settle s (asSteps ops)) ∧
        (Step.transaction false ops).run s = (.ended false answers none, s)) ∧
    (∀ answers fault, StopsAfter s ops answers fault →
      (∀ committed, ∃ t, Work.inTurn (asWorks ops) ⟨committed, some s⟩
        = (.error (answers, fault), ⟨committed, some t⟩)) ∧
      ∀ keep, (Step.transaction keep ops).run s = (.ended false answers (some fault), s)) ∧
    ((∃ answers, AnswersEach s ops answers) ∨
      ∃ answers fault, StopsAfter s ops answers fault) := by
  refine ⟨fun today op => op.performs today, fun answers answered => ?_,
    fun answers fault stopped => ?_, answersEach_or_stopsAfter s ops⟩
  · have hall := runAll_of_answersEach answered
    exact ⟨(performs_inTurn_of_store hall).apply_ok, run_transaction_of_store hall,
      run_transaction_of_store hall⟩
  · have hall := runAll_of_stopsAfter stopped
    exact ⟨(performs_inTurn_of_fault hall).apply_error, fun keep => run_transaction_of_fault hall⟩

/-- In one transaction, a record gets a director that is enrolled in it and taken away again.  A
submission with half of a surrogate pair stops after it has enrolled a director; the session sees
that one, and the one enrolled before it, until the transaction is rolled back. -/
theorem transactions_with_a_director :
    let ford := Operation.enrol (.direct .director) { name := "Ford" }
    let ops := [(Date.epoch, ford), (Date.epoch, .createRecord "x" { refs := ⟨2, 1, 1, 1⟩ }),
      (Date.epoch, ford), (Date.epoch, .remove (.direct .director) 2)]
    let answers := [.lookupId 2, .recordId "x", .lookupId 2, .flag true]
    let lang : Submission :=
      { direct := ⟨some { name := "Lang" }, some { name := ⟨[.half 0]⟩ }, none, none⟩ }
    let refused :=
      [(Date.epoch, ford), (Date.epoch, .submit "y" lang), (Date.epoch, .hasRecord "y")]
    let fault := Fault.unstorable ⟨[.half 0]⟩
    AnswersEach .seeded ops answers ∧
      Work.inTurn (asWorks ops) ⟨.seeded, some .seeded⟩
          = (.ok answers, ⟨.seeded, some (settle .seeded (asSteps ops))⟩) ∧
      (Step.transaction true ops).run .seeded
          = (.ended true answers none, settle .seeded (asSteps ops)) ∧
      (Step.transaction false ops).run .seeded = (.ended false answers none, .seeded) ∧
      StopsAfter .seeded refused [.lookupId 2] fault ∧
      ∃ t, Work.inTurn (asWorks refused) ⟨.seeded, some .seeded⟩
            = (.error ([.lookupId 2], fault), ⟨.seeded, some t⟩) ∧
        (t.keys (.direct .director)).rows.map (·.2.name) = ["Unknown Director", "Ford", "Lang"] ∧
        ∀ keep, (Step.transaction keep refused).run .seeded
          = (.ended false [.lookupId 2] (some fault), .seeded) := by
  intro ford ops answers lang refused fault
  obtain ⟨_, hanswered, _, _⟩ := transaction_eq_one_by_one .seeded ops
  obtain ⟨_, _, hstopped, _⟩ := transaction_eq_one_by_one .seeded refused
  have answered : AnswersEach .seeded ops answers := by
    refine (answersEach_cons_iff rfl).2 ⟨_, rfl, ?_⟩
    refine (answersEach_cons_iff rfl).2 ⟨_, rfl, ?_⟩
    refine (answersEach_cons_iff rfl).2 ⟨_, rfl, ?_⟩
    exact (answersEach_cons_iff rfl).2 ⟨_, rfl, rfl⟩
  have stopped : StopsAfter .seeded refused [.lookupId 2] fault :=
    ⟨[(.epoch, ford)], .epoch, .submit "y" lang, [(.epoch, .hasRecord "y")], rfl, rfl, rfl⟩
  obtain ⟨inside, committed, rolled_back⟩ := hanswered answers answered
  obtain ⟨unfinished, undone⟩ := hstopped _ _ stopped
  obtain ⟨t, hturn⟩ := unfinished .seeded
  -- what the session saw at the fault is what its work computes
  have hdirectors : ((Work.inTurn (asWorks refused) ⟨.seeded, some .seeded⟩).2.seen.keys
      (.direct .director)).rows.map (·.2.name) = ["Unknown Director", "Ford", "Lang"] := by
    decide
  rw [hturn] at hdirectors
  exact ⟨answered, inside .seeded, committed, rolled_back, stopped, t, hturn, hdirectors, undone⟩

end OneByOne
end CardCatalog
