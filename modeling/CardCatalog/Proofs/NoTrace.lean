import CardCatalog.Http.Server
import CardCatalog.Proofs.Enrolment
import CardCatalog.Proofs.Sessions

/-!
# Failures leave no trace

A step on a store is an operation, a form that is carried out if it is valid, a transaction, or
a request.  It fails if it stops, if the form is turned down, if it does not find what it is
about, or if the response has a status from 400 on.  A step that stops is undone; what is not
found is noticed before anything is written, so there is nothing to undo.

Results: a step that fails leaves the store as it was, with the ids that new rows would take,
so it can be struck out of every run, and out of every transaction, and nothing else changes
(`failures_leave_no_trace`).
-/

namespace CardCatalog

open Calendar (Date)
open Text (Wide)
open Validation (Checked Issue)

section Answers

/-- Whether an answer says that nothing was found. -/
def Answer.isNotFound : Answer → Bool
  | .lookup none | .record none | .added none | .flag false => true
  | _ => false

namespace Store

variable {s s' : Store} {today : Date} {id : String}

/-- A record is there once it is created. -/
theorem contains_of_createRecord
    {d : RecordDraft}
    (h : s.createRecord today id d = .ok s') :
    s'.records.contains id = true := by
  cases hid : s.records.contains id with
  | true =>
      rw [createRecord_of_contains hid] at h
      cases h
      exact hid
  | false =>
      rw [createRecord_of_not_contains hid] at h
      obtain ⟨row, _, h⟩ := bind_eq_ok_iff.1 h
      obtain ⟨_, _, h⟩ := bind_eq_ok_iff.1 h
      obtain ⟨t₁, h₁, h⟩ := bind_eq_ok_iff.1 h
      obtain ⟨t₂, h₂, h₃⟩ := bind_eq_ok_iff.1 h
      have howner : (s.records.put id row).contains id = true := by simp
      obtain ⟨_, r₁⟩ :=
        edits_of_attach (s := { s with records := s.records.put id row }) howner h₁
      obtain ⟨_, r₂⟩ := edits_of_insertLinks (r₁ ▸ howner) h₂
      obtain ⟨_, r₃⟩ := edits_of_attach (r₂ ▸ r₁ ▸ howner) h₃
      rw [r₃, r₂, r₁]
      exact howner

/-- A record that is there is not answered as missing. -/
theorem loadRecord_ne_none
    (hid : s.records.contains id = true) :
    s.loadRecord id ≠ .ok none := by
  obtain ⟨row, hrow⟩ := s.records.contains_iff.1 hid
  rw [loadRecord_of_some hrow]
  intro h
  obtain ⟨_, _, h⟩ := map_eq_ok_iff.1 h
  cases h

theorem eq_of_amend_none
    {k : Kind} {i : Int} {p : Patch Wide}
    (h : s.amend k i p = .ok (none, s')) :
    s' = s := by
  cases amended_of_amend h with
  | absent _ => rfl

theorem eq_of_remove_false
    {k : Kind} {i : Int}
    (h : s.remove k i = .ok (false, s')) :
    s' = s := by
  cases removed_of_remove h with
  | absent _ => rfl

/-- A record that is revised is answered. -/
theorem get?_of_reviseRecord_none
    {r : RecordRevision}
    (h : s.reviseRecord today id r = .ok (none, s')) :
    s.records.get? id = none ∧ s' = s := by
  cases hold : s.records.get? id with
  | none =>
      rw [reviseRecord_of_none hold] at h
      cases h
      exact ⟨rfl, rfl⟩
  | some old =>
      rw [reviseRecord_of_some hold] at h
      obtain ⟨_, _, h⟩ := bind_eq_ok_iff.1 h
      obtain ⟨_, _, h⟩ := bind_eq_ok_iff.1 h
      obtain ⟨_, _, h⟩ := bind_eq_ok_iff.1 h
      obtain ⟨_, _, h⟩ := bind_eq_ok_iff.1 h
      obtain ⟨_, _, h⟩ := bind_eq_ok_iff.1 h
      cases h

theorem eq_of_addLinks_none
    {links : List LinkDraft}
    (h : s.addLinks today id links = .ok (none, s')) :
    s' = s := by
  obtain ⟨_, _, rfl⟩ | ⟨_, _, _, _, hcount, _⟩ := linked_of_addLinks h
  · rfl
  · cases hcount

theorem eq_of_deleteRecord_false
    (h : (s.deleteRecord id).1 = false) :
    (s.deleteRecord id).2 = s := by
  unfold deleteRecord at h ⊢
  split
  · rename_i hid
    rw [if_pos hid] at h
    cases h
  · rfl

/-- A submission is always answered with its record. -/
theorem submit_ne_none (sub : Submission) :
    s.submit today id sub ≠ .ok (none, s') := by
  intro h
  cases hid : s.records.contains id with
  | true =>
      rw [submit_of_contains hid] at h
      obtain ⟨_, hload, h⟩ := map_eq_ok_iff.1 h
      cases h
      exact loadRecord_ne_none hid hload
  | false =>
      rw [submit_of_not_contains hid] at h
      obtain ⟨_, _, h⟩ := bind_eq_ok_iff.1 h
      obtain ⟨_, _, h⟩ := bind_eq_ok_iff.1 h
      obtain ⟨_, _, h⟩ := bind_eq_ok_iff.1 h
      obtain ⟨t, ht, h⟩ := bind_eq_ok_iff.1 h
      obtain ⟨_, hload, h⟩ := bind_eq_ok_iff.1 h
      cases h
      exact loadRecord_ne_none (contains_of_createRecord ht) hload

/-- A resubmission enrols nothing if there is no record. -/
theorem eq_of_resubmit_none
    {sub : Resubmission}
    (h : s.resubmit today id sub = .ok (none, s')) :
    s' = s := by
  cases hid : s.records.contains id with
  | true =>
      rw [resubmit_of_contains hid] at h
      obtain ⟨direct, _, h⟩ := bind_eq_ok_iff.1 h
      obtain ⟨genres?, _, h⟩ := bind_eq_ok_iff.1 h
      obtain ⟨idols?, _, h⟩ := bind_eq_ok_iff.1 h
      obtain ⟨_, _, _, hstore⟩ := s.enrolments_eq direct ⟨genres?.getD [], idols?.getD []⟩
      simp only [enrolAttached?_eq] at h
      -- the record is still there when its rows are enrolled
      have hmissing := (get?_of_reviseRecord_none h).1
      have hrecords := congrArg records hstore
      rw [records_enrolNamed] at hrecords
      dsimp only at hrecords
      rw [hrecords] at hmissing
      rw [s.records.contains_eq_false_iff.2 hmissing] at hid
      cases hid
  | false =>
      rw [resubmit_of_not_contains hid] at h
      cases h
      rfl

/-- What is not found is noticed before anything is written. -/
theorem eq_of_isNotFound
    {op : Operation} {a : Answer}
    (h : op.run today s = .ok (a, s'))
    (missing : a.isNotFound = true) :
    s' = s := by
  cases ran_of_run h with
  | read _ _ => rfl
  | enrol _ | createRecord _ _ => cases missing
  | @amend _ _ _ row? _ amended =>
      cases row? with
      | none => exact eq_of_amend_none amended
      | some row => cases missing
  | @remove _ _ b _ removed =>
      cases b with
      | false => exact eq_of_remove_false removed
      | true => cases missing
  | @reviseRecord _ _ _ found? _ _ revised =>
      cases found? with
      | none => exact (get?_of_reviseRecord_none revised).2
      | some found => cases missing
  | @addLinks _ _ _ count? _ _ added =>
      cases count? with
      | none => exact eq_of_addLinks_none added
      | some count => cases missing
  | @deleteRecord _ id _ =>
      cases hflag : (s.deleteRecord id).1 with
      | false => exact eq_of_deleteRecord_false hflag
      | true =>
          rw [hflag] at missing
          cases missing
  | @submit _ _ sub found? _ _ submitted =>
      cases found? with
      | none => exact absurd submitted (submit_ne_none sub)
      | some found => cases missing
  | @resubmit _ _ _ found? _ _ resubmitted =>
      cases found? with
      | none => exact eq_of_resubmit_none resubmitted
      | some found => cases missing

end Store

/-- An answer that is worded as a refusal says that nothing was found. -/
theorem isNotFound_of_refusal
    {status : Nat} {what : String} {a : Answer}
    (success : status < 400)
    (refusal : 400 ≤ (Http.ofAnswer status what a).status)
    (handled : (Http.ofAnswer status what a).status < 500) :
    a.isNotFound = true := by
  cases a with
  | lookup row? =>
      cases row? with
      | none => rfl
      | some row =>
          have hstatus : 400 ≤ status := refusal
          omega
  | flag yes =>
      cases yes with
      | false => rfl
      | true =>
          have hstatus : 400 ≤ 204 := refusal
          omega
  | record found? =>
      cases found? with
      | none => rfl
      | some found =>
          by_cases hfound : Http.isPresentable found = true
          · simp only [Http.ofAnswer, Http.ofRecord, hfound, if_true, Http.ofFound] at refusal
            omega
          · simp only [Http.ofAnswer, Http.ofRecord, hfound, Http.Response.failure] at handled
            simp at handled
  | added count? =>
      cases count? with
      | none => rfl
      | some count =>
          have hstatus : 400 ≤ status := refusal
          omega
  | records found | recordPage page =>
      simp only [Http.ofAnswer, Http.ofRecords] at refusal handled
      split at refusal
      · simp [Http.Response.ok] at refusal
      · rename_i hfound
        simp [hfound, Http.Response.failure] at handled
  | lookupId i | recordId i =>
      have hstatus : 400 ≤ status := refusal
      omega
  | lookups rows | lookupPage page | counts rows | recordIds ids =>
      have hstatus : 400 ≤ 200 := refusal
      omega

end Answers

section Steps

/-- One step on a store. -/
inductive Step where
  /-- An operation on a day. -/
  | operation (today : Date) (op : Operation)
  /-- A form that is checked, and carried out as an operation if it is valid. -/
  | form (today : Date) (form : Checked Operation)
  /-- Operations in one transaction, each on its own day; it is kept or rolled back at the end. -/
  | transaction (keep : Bool) (ops : List (Date × Operation))
  /-- A request to the service. -/
  | request (settings : Settings) (today : Date) (r : Http.Request)

/-- What a step tells. -/
inductive Reply where
  | answered (a : Answer)
  | stopped (fault : Fault)
  | refused (issues : List Issue)
  | ended (committed : Bool) (answers : List Answer) (fault? : Option Fault)
  | responded (response : Http.Response)

/-- Whether a reply tells of a failure, or that nothing was found. -/
def Reply.isFailure : Reply → Bool
  | .answered a => a.isNotFound
  | .stopped _ | .refused _ => true
  | .ended committed _ _ => !committed
  | .responded response => 400 ≤ response.status

/-- An operation as a step, which is a unit of work on a session of its own. -/
def Operation.reply (today : Date) (op : Operation) (s : Store) : Reply × Store :=
  match (Work.transactional (op.perform today)).alone s with
  | (.ok a, s') => (.answered a, s')
  | (.error fault, s') => (.stopped fault, s')

/-- What a step tells, and the store that it leaves. -/
def Step.run : Step → Store → Reply × Store
  | .operation today op, s | .form today (.valid op), s => op.reply today s
  | .form _ (.invalid first rest), s => (.refused (first :: rest), s)
  | .transaction keep ops, s =>
      match (Work.together keep (asWorks ops)).alone s with
      | (.ok answers, s') => (.ended keep answers none, s')
      | (.error (answers, fault), s') => (.ended false answers (some fault), s')
  | .request settings today r, s =>
      let (response, s') := Http.respond settings today r s
      (.responded response, s')

variable {s : Store}

theorem Operation.reply_of_error
    {today : Date} {op : Operation} {fault : Fault}
    (h : op.run today s = .error fault) :
    op.reply today s = (.stopped fault, s) := by
  rw [reply, ((op.performs today s).of_eq h).alone_error]

theorem Operation.reply_of_ok
    {today : Date} {op : Operation} {a : Answer} {t : Store}
    (h : op.run today s = .ok (a, t)) :
    op.reply today s = (.answered a, t) := by
  rw [reply, ((op.performs today s).of_eq h).alone_ok]

theorem Operation.reply_of_isFailure
    {today : Date} {op : Operation}
    (failure : (op.reply today s).1.isFailure = true) :
    (op.reply today s).2 = s := by
  cases hrun : op.run today s with
  | error fault => rw [reply_of_error hrun]
  | ok found =>
      rw [reply_of_ok hrun] at failure ⊢
      exact Store.eq_of_isNotFound hrun failure

/-- Operations of which none stops are committed together, or rolled back. -/
theorem run_transaction_of_store
    {keep : Bool} {ops : List (Date × Operation)} {answers : List Answer} {t : Store}
    (h : runAll s (asActions ops) = ⟨answers, none, some t⟩) :
    (Step.transaction keep ops).run s = (.ended keep answers none, if keep then t else s) := by
  rw [Step.run, Work.alone_together_of_ok keep (performs_inTurn_of_store h)]

/-- Operations of which one stops are rolled back together. -/
theorem run_transaction_of_fault
    {keep : Bool} {ops : List (Date × Operation)} {answers : List Answer} {fault : Fault}
    (h : runAll s (asActions ops) = ⟨answers, some fault, none⟩) :
    (Step.transaction keep ops).run s = (.ended false answers (some fault), s) := by
  rw [Step.run, Work.alone_together_of_error keep (performs_inTurn_of_fault h)]

theorem run_plan_of_error
    {today : Date} {op : Operation} {status : Nat} {what : String} {fault : Fault}
    (h : op.run today s = .error fault) :
    (Http.Plan.operation op status what).run today s = (Http.ofFault fault, s) := by
  have hstops : ((Http.Plan.operation op status what).perform today).Performs s
      (.error (Http.ofFault fault)) :=
    (((op.performs today s).of_eq h).adapt Http.ofFault).bind_error
  rw [Http.Plan.run, hstops.alone_error]

/-- What a plan writes is kept unless it is answered with a failure. -/
theorem run_plan_of_ok
    {today : Date} {op : Operation} {status : Nat} {what : String} {a : Answer} {s' : Store}
    (h : op.run today s = .ok (a, s')) :
    (Http.Plan.operation op status what).run today s
      = (Http.ofAnswer status what a,
          if (Http.ofAnswer status what a).status < 400 then s' else s) := by
  have hrun := ((op.performs today s).of_eq h).adapt Http.ofFault
  by_cases hstatus : (Http.ofAnswer status what a).status < 400
  · have hanswers : ((Http.Plan.operation op status what).perform today).Performs s
        (.ok (Http.ofAnswer status what a, s')) := by
      refine hrun.bind_ok ?_
      rw [if_pos hstatus]
      exact Work.performs_pure _
    rw [Http.Plan.run, hanswers.alone_ok, if_pos hstatus]
  · have hstops : ((Http.Plan.operation op status what).perform today).Performs s
        (.error (Http.ofAnswer status what a)) := by
      refine hrun.bind_ok ?_
      rw [if_neg hstatus]
      exact Work.performs_throw _
    rw [Http.Plan.run, hstops.alone_error, if_neg hstatus]

/-- A plan that reads answers what was read. -/
theorem run_plan_of_reading
    {today : Date} {op : Operation} {status : Nat} {what : String} {a : Answer}
    (h : op.run today s = .ok (a, s)) :
    (Http.Plan.operation op status what).run today s = (Http.ofAnswer status what a, s) := by
  rw [run_plan_of_ok h, ite_self]

/-- A plan whose response is a failure leaves the store as it was. -/
theorem run_plan_of_failure
    {p : Http.Plan} {today : Date}
    (h : 400 ≤ (p.run today s).1.status) :
    (p.run today s).2 = s := by
  cases p with
  | answer j => rfl
  | operation op status what =>
      cases hrun : op.run today s with
      | error fault => rw [run_plan_of_error hrun]
      | ok found =>
          rw [run_plan_of_ok hrun] at h ⊢
          exact if_neg (Nat.not_lt.2 h)

theorem respond_of_failure
    {settings : Settings} {today : Date} {r : Http.Request}
    (h : 400 ≤ (Http.respond settings today r s).1.status) :
    (Http.respond settings today r s).2 = s := by
  unfold Http.respond at h ⊢
  split at h
  · unfold Http.serve at h ⊢
    split at h
    · rfl
    · rfl
    · split at h
      · rfl
      · exact run_plan_of_failure h
  · rfl
  · rfl
  · rfl

/-- A step that fails leaves the store as it was. -/
theorem Step.run_of_isFailure
    {step : Step}
    (failure : (step.run s).1.isFailure = true) :
    (step.run s).2 = s := by
  cases step with
  | operation today op => exact op.reply_of_isFailure failure
  | form today form =>
      cases form with
      | valid op => exact op.reply_of_isFailure failure
      | invalid first rest => rfl
  | transaction keep ops =>
      rcases performs_inTurn_cases s ops with ⟨_, _, hall, _⟩ | ⟨_, _, hall, _⟩
      · rw [run_transaction_of_store hall] at failure ⊢
        cases keep with
        | true => cases failure
        | false => rfl
      · rw [run_transaction_of_fault hall]
  | request settings today r =>
      exact respond_of_failure (of_decide_eq_true failure)

end Steps

section Runs

/-- What the steps of a run tell. -/
def replies (s : Store) : List Step → List Reply
  | [] => []
  | step :: steps => (step.run s).1 :: replies (step.run s).2 steps

/-- The store that a run leaves. -/
def settle (s : Store) (steps : List Step) : Store :=
  steps.foldl (fun s step => (step.run s).2) s

theorem replies_append (s : Store) (before later : List Step) :
    replies s (before ++ later) = replies s before ++ replies (settle s before) later := by
  induction before generalizing s with
  | nil => rfl
  | cons step before ih =>
      simp only [List.cons_append, replies, ih]
      rfl

theorem settle_append (s : Store) (before later : List Step) :
    settle s (before ++ later) = settle (settle s before) later :=
  List.foldl_append

@[simp] theorem length_replies (s : Store) (steps : List Step) :
    (replies s steps).length = steps.length := by
  induction steps generalizing s with
  | nil => rfl
  | cons step steps ih => simp [replies, ih]

/-- A step that fails can be struck out of a run. -/
theorem strike_failure
    (s : Store) (before later : List Step) {step : Step}
    (failure : (step.run (settle s before)).1.isFailure = true) :
    replies s (before ++ later)
        = (replies s (before ++ step :: later)).eraseIdx before.length ∧
      settle s (before ++ later) = settle s (before ++ step :: later) := by
  have hstep := step.run_of_isFailure failure
  constructor
  · rw [replies_append, replies_append, List.eraseIdx_append_of_length_le (by simp)]
    simp [replies, hstep]
  · rw [settle_append, settle_append]
    show _ = settle (step.run (settle s before)).2 later
    rw [hstep]

/-- Actions that are run behind others go on from the store that those leave. -/
theorem runAll_append
    {acts later : List (Action Answer)} {s t : Store}
    (h : (runAll s acts).store? = some t) :
    runAll s (acts ++ later)
      = { runAll t later with
          answers := (runAll s acts).answers ++ (runAll t later).answers } := by
  induction acts generalizing s with
  | nil =>
      cases h
      rfl
  | cons act acts ih =>
      simp only [List.cons_append, runAll] at h ⊢
      cases hact : act s with
      | error fault =>
          rw [hact] at h
          cases h
      | ok found =>
          rw [hact] at h
          simp only at h ⊢
          rw [ih h]
          rfl

theorem length_answers_runAll
    {acts : List (Action Answer)} {s t : Store}
    (h : (runAll s acts).store? = some t) :
    (runAll s acts).answers.length = acts.length := by
  induction acts generalizing s with
  | nil => rfl
  | cons act acts ih =>
      simp only [runAll] at h ⊢
      cases hact : act s with
      | error fault =>
          rw [hact] at h
          cases h
      | ok found =>
          rw [hact] at h
          simp [ih h]

/-- An operation that does not find what it is about can be struck out of a transaction. -/
theorem strike_isNotFound
    {s t t' : Store} {acts later : List (Action Answer)} {today : Date} {op : Operation} {a : Answer}
    (before : (runAll s acts).store? = some t)
    (run : op.run today t = .ok (a, t'))
    (missing : a.isNotFound = true) :
    let out := runAll s (acts ++ op.run today :: later)
    runAll s (acts ++ later) = { out with answers := out.answers.eraseIdx acts.length } := by
  intro out
  have ht := Store.eq_of_isNotFound run missing
  subst ht
  have hout : out = _ := runAll_append before
  have hlength := length_answers_runAll before
  rw [hout, runAll_append before]
  simp only [runAll, run, List.eraseIdx_append_of_length_le (Nat.le_of_eq hlength), hlength,
    Nat.sub_self, List.eraseIdx_cons_zero]

/-- A step that fails leaves the store as it was, and can be struck out of every run: the other
replies and the last store stay the same.  An operation that does not find what it is about
writes nothing even where it is not undone: it can be struck out of a transaction, and a
refusal of the service is worded only for such answers. -/
theorem failures_leave_no_trace :
    (∀ (s : Store) (step : Step), (step.run s).1.isFailure = true → (step.run s).2 = s) ∧
    (∀ (s : Store) (before later : List Step) (step : Step),
      (step.run (settle s before)).1.isFailure = true →
        replies s (before ++ later)
            = (replies s (before ++ step :: later)).eraseIdx before.length ∧
          settle s (before ++ later) = settle s (before ++ step :: later)) ∧
    (∀ (s t t' : Store) (acts later : List (Action Answer)) today op a,
      (runAll s acts).store? = some t →
        Operation.run today op t = .ok (a, t') → a.isNotFound = true →
          let out := runAll s (acts ++ op.run today :: later)
          runAll s (acts ++ later) = { out with answers := out.answers.eraseIdx acts.length }) ∧
    (∀ (s s' : Store) today op a status what, status < 400 →
      Operation.run today op s = .ok (a, s') →
        400 ≤ (Http.ofAnswer status what a).status →
          (Http.ofAnswer status what a).status < 500 → s' = s) := by
  refine ⟨fun _ step => step.run_of_isFailure,
    fun s before later _ => strike_failure s before later,
    fun _ _ _ _ _ _ _ _ => strike_isNotFound, ?_⟩
  intro s s' today op a status what success hrun refusal handled
  exact Store.eq_of_isNotFound hrun (isNotFound_of_refusal success refusal handled)

/-- A submission that stops at its last integer takes no id for the director that it names, and
a genre that is not there to be removed has no part in a transaction. -/
theorem failed_steps_struck_out :
    let failing : Step := .operation .epoch
      (.submit "x"
        { details := { title := untitled, duration := 0x8000000000000000 },
          direct := ⟨some { name := "Ford" }, none, none, none⟩ })
    let next := Operation.enrol (.direct .director) { name := "Lang" }
    let missing := Operation.remove (.attached .genre) 7
    let out := runAll .seeded [missing.run .epoch, next.run .epoch]
    (failing.run .seeded).1.isFailure = true ∧
      (failing.run .seeded).2 = .seeded ∧
      replies .seeded [.operation .epoch next]
        = (replies .seeded [failing, .operation .epoch next]).eraseIdx 0 ∧
      settle .seeded [.operation .epoch next] = settle .seeded [failing, .operation .epoch next] ∧
      missing.run .epoch .seeded = .ok (.flag false, .seeded) ∧
      runAll .seeded [next.run .epoch] = { out with answers := out.answers.eraseIdx 0 } ∧
      (Http.ofAnswer 204 "Genre" (.flag false)).status = 404 ∧
      ∀ s', missing.run .epoch .seeded = .ok (.flag false, s') → s' = .seeded := by
  intro failing next missing out
  obtain ⟨unchanged, struck, transaction, refused⟩ := failures_leave_no_trace
  have failure : (failing.run .seeded).1.isFailure = true := by decide
  have hmissing : missing.run .epoch .seeded = .ok (.flag false, .seeded) := rfl
  obtain ⟨hreplies, hstore⟩ := struck .seeded [] [.operation .epoch next] failing failure
  have htransaction := transaction .seeded .seeded .seeded [] [next.run .epoch] .epoch missing
    (.flag false) rfl hmissing rfl
  refine ⟨failure, unchanged .seeded failing failure, hreplies, hstore, hmissing, htransaction,
    rfl, fun s' h => ?_⟩
  exact refused .seeded s' .epoch missing (.flag false) 204 "Genre" (by decide) h
    (by decide) (by decide)

end Runs

end CardCatalog
