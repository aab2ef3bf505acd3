import CardCatalog.Submission

/-!
# Operations

An operation is one request to the catalog, and its answer is what it reads back. Its texts
are wide texts; an id that cannot be stored stops it, and other contents stop it where they
would be written.

An operation is described by what comes of it, all of it or nothing. How it gets there, and who
sees what on the way, is told of sessions.

Results: an operation that stops leaves no store behind, so the next one starts where this
one started (`Action.store_of_error`).
-/

namespace CardCatalog

open Calendar (Date)
open Text (Wide)

/-- A request to the catalog. -/
inductive Operation where
  | findLookup (kind : Kind) (id : Int)
  | allLookups (kind : Kind)
  | listLookups (kind : Kind) (filter : LookupFilter)
  | pageLookups (kind : Kind) (filter : LookupFilter) (page : PageRequest)
  | enrol (kind : Kind) (candidate : Candidate Wide)
  | amend (kind : Kind) (id : Int) (patch : Patch Wide)
  | remove (kind : Kind) (id : Int)
  | recordCounts (kind : Kind)
  | loadRecord (id : Wide)
  | hasRecord (id : Wide)
  | recordIds
  | listRecords (filter : RecordFilter)
  | pageRecords (filter : RecordFilter) (page : PageRequest)
  | recordsBy (kind : Kind) (target : Int) (page : PageRequest)
  | createRecord (id : Wide) (draft : RecordDraft)
  | reviseRecord (id : Wide) (revision : RecordRevision)
  | addLinks (id : Wide) (links : List LinkDraft)
  | deleteRecord (id : Wide)
  | submit (id : Wide) (submission : Submission)
  | resubmit (id : Wide) (submission : Resubmission)

/-- What an operation reads back. -/
inductive Answer where
  | lookup (row? : Option Lookup)
  | lookups (rows : List Lookup)
  | lookupPage (page : Page Lookup)
  | lookupId (id : Int)
  | flag (yes : Bool)
  | counts (rows : List RecordCount)
  | record (found? : Option Aggregate)
  | records (found : List Aggregate)
  | recordPage (page : Page Aggregate)
  | recordId (id : String)
  | recordIds (ids : List String)
  | added (count? : Option Nat)
  deriving DecidableEq

/-- What may be done to a store: it stops, or answers and leaves a store. -/
abbrev Action (α : Type) := Store → Except Fault (α × Store)

namespace Operation

/-- An operation as an action, on a given day. -/
def run (today : Date) (op : Operation) : Action Answer := fun s =>
  match op with
  | findLookup k id => (s.findLookup k id).map fun a => (.lookup a, s)
  | allLookups k => .ok (.lookups (s.lookupRows k), s)
  | listLookups k f => (s.listLookups k f).map fun a => (.lookups a, s)
  | pageLookups k f q => (s.pageLookups k f q).map fun a => (.lookupPage a, s)
  | enrol k c => c.toStorable.map fun c => (.lookupId (s.enrol k c).1, (s.enrol k c).2)
  | amend k id p => (s.amend k id p).map fun a => (.lookup a.1, a.2)
  | remove k id => (s.remove k id).map fun a => (.flag a.1, a.2)
  | recordCounts k => .ok (.counts (s.recordCounts k), s)
  | loadRecord id => do
    let found? ← s.loadRecord (← id.toStorable)
    .ok (.record found?, s)
  | hasRecord id => id.toStorable.map fun id => (.flag (s.records.contains id), s)
  | recordIds => .ok (.recordIds s.recordIds, s)
  | listRecords f => (s.listRecords f).map fun a => (.records a, s)
  | pageRecords f q => (s.pageRecords f q).map fun a => (.recordPage a, s)
  | recordsBy k id q => (s.recordsBy k id q).map fun a => (.recordPage a, s)
  | createRecord id d => do
    let id ← id.toStorable
    let s' ← s.createRecord today id d
    .ok (.recordId id, s')
  | reviseRecord id r => do
    let (found?, s') ← s.reviseRecord today (← id.toStorable) r
    .ok (.record found?, s')
  | addLinks id links => do
    let (count?, s') ← s.addLinks today (← id.toStorable) links
    .ok (.added count?, s')
  | deleteRecord id =>
    id.toStorable.map fun id => (.flag (s.deleteRecord id).1, (s.deleteRecord id).2)
  | submit id sub => do
    let (found?, s') ← s.submit today (← id.toStorable) sub
    .ok (.record found?, s')
  | resubmit id sub => do
    let (found?, s') ← s.resubmit today (← id.toStorable) sub
    .ok (.record found?, s')

end Operation

section Running

variable {α : Type}

/-- The store after an action, which is the one before if the action stops. -/
def Action.store (act : Action α) (s : Store) : Store :=
  match act s with
  | .ok (_, s') => s'
  | .error _ => s

/-- The answer of an action. -/
def Action.answer (act : Action α) (s : Store) : Except Fault α :=
  (act s).map (·.1)

/-- An action that stops changes nothing. -/
theorem Action.store_of_error {act : Action α} {s : Store} {e : Fault}
    (h : act s = .error e) : act.store s = s := by
  simp [Action.store, h]

theorem Action.store_of_ok {act : Action α} {s t : Store} {a : α}
    (h : act s = .ok (a, t)) : act.store s = t := by
  simp [Action.store, h]

/-- What holds of the store that an action leaves if it answers, and of the one before if it
stops, holds of the store after it. -/
@[elab_as_elim]
theorem Action.store_cases {motive : Store → Prop} (act : Action α) (s : Store)
    (answered : ∀ a t, act s = .ok (a, t) → motive t)
    (stopped : ∀ e, act s = .error e → motive s) :
    motive (act.store s) := by
  cases h : act s with
  | error e =>
      rw [Action.store_of_error h]
      exact stopped e h
  | ok out =>
      rw [Action.store_of_ok h]
      exact answered out.1 out.2 h

theorem Action.eq_ok_of_answer {act : Action α} {s : Store} {a : α}
    (h : act.answer s = .ok a) : act s = .ok (a, act.store s) := by
  unfold Action.answer at h
  cases hact : act s with
  | error e =>
      rw [hact] at h
      cases h
  | ok out =>
      rw [hact] at h
      cases h
      rw [Action.store_of_ok hact]

/-- What became of actions one after the other: the answers up to the first fault, the fault if
there was one, and the store if there was none. -/
structure Outcome (α : Type) where
  answers : List α
  fault? : Option Fault
  store? : Option Store

/-- Runs actions one after the other, each on the store that the last one left. -/
def runAll (s : Store) : List (Action α) → Outcome α
  | [] => ⟨[], none, some s⟩
  | act :: rest =>
    match act s with
    | .error e => ⟨[], some e, none⟩
    | .ok (a, s') =>
      let out := runAll s' rest
      { out with answers := a :: out.answers }

end Running

end CardCatalog
