import CardCatalog.Operation

/-!
# Sessions

A session is what one client does to the store, statement by statement.  It has a transaction
open from its first statement on: what it writes goes into a working store, which it alone
sees, and the committed store is replaced when the transaction is committed, and only then.
Work that stops in the middle leaves what it wrote so far in the working store; it takes a
rollback to be rid of it, and nothing else is done in the transaction before that.  A statement
reads what is there when it is made: a session keeps no rows from one statement to the next.

A unit of work (`transactional`) begins a transaction, commits it if the work answers and rolls
it back if the work stops.  If there is a transaction already, the unit joins it, and leaves it
to the one who opened it.

Results: what a statement does (`Work.statement_of_ok`, `Work.statement_of_error`), what is done
one after the other (`Work.bind_apply`), and what becomes of a unit of work
(`Work.transactional_of_closed`, `Work.transactional_of_open`).
-/

namespace CardCatalog

/-- A session: the committed store, which all sessions see, and the one that this session works
on while it has a transaction open. -/
structure Session where
  committed : Store
  working? : Option Store := none

namespace Session

/-- The store that a session sees. -/
def seen (x : Session) : Store :=
  x.working?.getD x.committed

/-- The session with a transaction open, which begins from what is committed if it is new. -/
def opened (x : Session) : Session :=
  { x with working? := some x.seen }

/-- The session after its transaction is committed. -/
def commit (x : Session) : Session :=
  { committed := x.seen }

/-- The session after its transaction is rolled back. -/
def rollback (x : Session) : Session :=
  { committed := x.committed }

end Session

/-- What is done on a session: it answers, or stops with an error, and leaves the session in
some state either way. -/
abbrev Work (ε α : Type) := ExceptT ε (StateM Session) α

namespace Work

variable {ε ε' α β : Type}

/-- One statement: an action on what the session sees, which takes effect whole or not at all.
It opens a transaction if there is none. -/
def statement (act : Action α) : Work Fault α := fun x =>
  match act x.seen with
  | .ok (a, s) => (.ok a, { x with working? := some s })
  | .error fault => (.error fault, x.opened)

/-- A statement that reads. -/
def read (f : Store → Except Fault α) : Work Fault α :=
  statement fun s => (f s).map fun a => (a, s)

/-- A statement that writes. -/
def write (f : Store → Except Fault Store) : Work Fault Unit :=
  statement fun s => (f s).map fun s' => ((), s')

/-- A unit of work.  It joins a transaction that is open; otherwise it has one of its own, which
is committed if the work answers and rolled back if it stops. -/
def transactional (work : Work ε α) : Work ε α := fun x =>
  match x.working? with
  | some _ => work x
  | none =>
    match work x.opened with
    | (.ok a, x) => (.ok a, x.commit)
    | (.error e, x) => (.error e, x.rollback)

/-- Work after work, up to the first that stops, which is told with the answers until then. -/
def inTurn : List (Work Fault α) → Work (List α × Fault) (List α)
  | [] => pure []
  | work :: rest => do
    let a ← work.adapt fun fault => ([], fault)
    let answers ← (inTurn rest).adapt fun (answers, fault) => (a :: answers, fault)
    return a :: answers

/-- Work after work in one transaction, which is rolled back at the end unless it is kept. -/
def together (keep : Bool) (works : List (Work Fault α)) : Work (List α × Fault) (List α) :=
  transactional do
    let answers ← inTurn works
    unless keep do modify Session.rollback
    return answers

/-- What work on a session of its own answers, and what is committed when the session is
closed, which rolls back a transaction that is still open. -/
def alone (work : Work ε α) (s : Store) : Except ε α × Store :=
  let out := work { committed := s }
  (out.1, out.2.rollback.committed)

section Equations

variable {x : Session}

/-- A statement that answers writes into the transaction of the session. -/
theorem statement_of_ok
    {act : Action α} {a : α} {s : Store}
    (h : act x.seen = .ok (a, s)) :
    statement act x = (.ok a, { x with working? := some s }) := by
  rw [statement, h]

/-- A statement that stops writes nothing. -/
theorem statement_of_error
    {act : Action α} {fault : Fault}
    (h : act x.seen = .error fault) :
    statement act x = (.error fault, x.opened) := by
  rw [statement, h]

@[simp] theorem pure_apply (a : α) : (pure a : Work ε α) x = (.ok a, x) := rfl

/-- What is done after work that answers starts from the session that the work left. -/
theorem bind_apply (work : Work ε α) (next : α → Work ε β) :
    (work >>= next) x
      = match work x with
        | (.ok a, y) => next a y
        | (.error e, y) => (.error e, y) := by
  show (ExceptT.bindCont next (work x).1) (work x).2 = _
  rcases work x with ⟨_ | _, y⟩ <;> rfl

theorem adapt_apply (f : ε → ε') (work : Work ε α) :
    (work.adapt f : Work ε' α) x = ((work x).1.mapError f, (work x).2) := rfl

/-- A unit of work joins a transaction that is open. -/
theorem transactional_of_open (work : Work ε α) (committed s : Store) :
    transactional work ⟨committed, some s⟩ = work ⟨committed, some s⟩ := rfl

/-- A unit of work has a transaction of its own if none is open. -/
theorem transactional_of_closed (work : Work ε α) (s : Store) :
    transactional work ⟨s, none⟩
      = match work ⟨s, some s⟩ with
        | (.ok a, y) => (.ok a, y.commit)
        | (.error e, y) => (.error e, y.rollback) := rfl

end Equations

end Work

end CardCatalog
