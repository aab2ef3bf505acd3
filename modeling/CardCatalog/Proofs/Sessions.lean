import CardCatalog.Proofs.Branches
import CardCatalog.Session.Operations

/-!
# Work in a transaction

What an operation does to a store, whole or not at all, is what it comes to on a session: in an
open transaction it answers or stops alike, and if it answers, the session sees the store that is
told.  If it stops, the session may see anything, but in either case nothing is committed and the
transaction stays open.  Every kind of work is taken statement by statement; what a submission
checks before it enrols anything, the session finds out between one row and the next.

Results: what a statement and a sequence of them come to (`performs_statement`, `Performs.bind`),
what every operation comes to (`Operation.performs`), and what is committed after a unit of work
on a session of its own (`Performs.alone_ok`, `Performs.alone_error`) and after many in one
transaction (`alone_together_of_ok`, `alone_together_of_error`).
-/

namespace CardCatalog

open Calendar (Date)
open Text (Wide)

namespace Work

section Endings

variable {ε α β : Type} {s t : Store} {work : Work ε α} {r : Except ε (α × Store)}

/-- Whether work ended as is told of an action, in a transaction that is open still and of which
nothing is committed. -/
inductive Ends (committed : Store) : Except ε (α × Store) → Except ε α × Session → Prop
  | answered (a : α) (t : Store) : Ends committed (.ok (a, t)) (.ok a, ⟨committed, some t⟩)
  | stopped (e : ε) (t : Store) : Ends committed (.error e) (.error e, ⟨committed, some t⟩)

/-- Whether work in a transaction that sees a store comes to what is told of an action. -/
def Performs (work : Work ε α) (s : Store) (r : Except ε (α × Store)) : Prop :=
  ∀ committed, Ends committed r (work ⟨committed, some s⟩)

theorem Performs.of_eq
    {r' : Except ε (α × Store)}
    (h : work.Performs s r) (same : r = r') :
    work.Performs s r' :=
  same ▸ h

/-- Work that answers leaves the transaction open on the store that is told. -/
theorem Performs.apply_ok
    {a : α}
    (h : work.Performs s (.ok (a, t))) (committed : Store) :
    work ⟨committed, some s⟩ = (.ok a, ⟨committed, some t⟩) := by
  have hends := h committed
  generalize work ⟨committed, some s⟩ = out at hends
  cases hends
  rfl

/-- Work that stops leaves the transaction open on some store. -/
theorem Performs.apply_error
    {e : ε}
    (h : work.Performs s (.error e)) (committed : Store) :
    ∃ t, work ⟨committed, some s⟩ = (.error e, ⟨committed, some t⟩) := by
  have hends := h committed
  generalize work ⟨committed, some s⟩ = out at hends
  cases hends with
  | stopped e t => exact ⟨t, rfl⟩

theorem performs_pure (a : α) : (pure a : Work ε α).Performs s (.ok (a, s)) :=
  fun _ => .answered a s

theorem performs_throw (e : ε) : (throw e : Work ε α).Performs s (.error e) :=
  fun _ => .stopped e s

theorem performs_lift (x : Except Fault α) :
    (liftM x : Work Fault α).Performs s (x.map fun a => (a, s)) := by
  intro committed
  cases x with
  | error e => exact .stopped e s
  | ok a => exact .answered a s

theorem performs_statement (act : Action α) : (statement act).Performs s (act s) := by
  intro committed
  cases hact : act s with
  | error fault =>
      have hstops : statement act ⟨committed, some s⟩ = (.error fault, ⟨committed, some s⟩) :=
        statement_of_error hact
      rw [hstops]
      exact .stopped fault s
  | ok found =>
      have hanswers : statement act ⟨committed, some s⟩
          = (.ok found.1, ⟨committed, some found.2⟩) :=
        statement_of_ok hact
      rw [hanswers]
      exact .answered found.1 found.2

theorem performs_read (f : Store → Except Fault α) :
    (read f).Performs s ((f s).map fun a => (a, s)) :=
  performs_statement _

theorem performs_look (f : Store → α) :
    (read fun s => .ok (f s)).Performs s (.ok (f s, s)) :=
  performs_statement _

theorem performs_write (f : Store → Except Fault Store) :
    (write f).Performs s ((f s).map fun t => ((), t)) :=
  performs_statement _

theorem performs_put (f : Store → Store) :
    (write fun s => .ok (f s)).Performs s (.ok ((), f s)) :=
  performs_statement _

/-- A unit of work in an open transaction joins it. -/
theorem Performs.transactional (h : work.Performs s r) : (transactional work).Performs s r := by
  intro committed
  rw [transactional_of_open]
  exact h committed

section Sequences

variable {next : α → Work ε β}

/-- Work after work comes to the one outcome and then the other: what follows sees what was
written. -/
theorem Performs.bind
    {q : α → Store → Except ε (β × Store)}
    (h : work.Performs s r)
    (hnext : ∀ a t, r = .ok (a, t) → (next a).Performs t (q a t)) :
    (work >>= next).Performs s (r >>= fun x => q x.1 x.2) := by
  intro committed
  rw [bind_apply]
  cases r with
  | error e =>
      obtain ⟨t, ht⟩ := h.apply_error committed
      rw [ht]
      exact .stopped e t
  | ok found =>
      rw [h.apply_ok committed]
      exact hnext found.1 found.2 rfl committed

/-- Work that only reads hands on what it read. -/
theorem Performs.bind_read
    {x : Except ε α} {q : α → Except ε (β × Store)}
    (h : work.Performs s (x.map fun a => (a, s)))
    (hnext : ∀ a, x = .ok a → (next a).Performs s (q a)) :
    (work >>= next).Performs s (x >>= q) := by
  refine (h.bind (q := fun a _ => q a) fun a t heq => ?_).of_eq (by cases x <;> rfl)
  obtain ⟨b, hb, hpair⟩ := map_eq_ok_iff.1 heq
  cases hpair
  exact hnext _ hb

/-- Work that only writes hands on the store that it left. -/
theorem Performs.bind_write
    {work : Work ε Unit} {next : Unit → Work ε β}
    {x : Except ε Store} {q : Store → Except ε (β × Store)}
    (h : work.Performs s (x.map fun t => ((), t)))
    (hnext : ∀ t, (next ()).Performs t (q t)) :
    (work >>= next).Performs s (x >>= q) :=
  (h.bind (q := fun _ t => q t) fun _ t _ => hnext t).of_eq (by cases x <;> rfl)

/-- What is known to answer is followed by what comes next. -/
theorem Performs.bind_ok
    {a : α} {r' : Except ε (β × Store)}
    (h : work.Performs s (.ok (a, t)))
    (hnext : (next a).Performs t r') :
    (work >>= next).Performs s r' := by
  intro committed
  rw [bind_apply, h.apply_ok committed]
  exact hnext committed

/-- After work that stops, nothing more is done. -/
theorem Performs.bind_error
    {e : ε}
    (h : work.Performs s (.error e)) :
    (work >>= next).Performs s (.error e) := by
  intro committed
  obtain ⟨t, ht⟩ := h.apply_error committed
  rw [bind_apply, ht]
  exact .stopped e t

theorem Performs.adapt
    {ε' : Type}
    (h : work.Performs s r) (f : ε → ε') :
    Performs (work.adapt f : Work ε' α) s (r.mapError f) := by
  intro committed
  rw [adapt_apply]
  cases r with
  | error e =>
      obtain ⟨t, ht⟩ := h.apply_error committed
      rw [ht]
      exact .stopped (f e) t
  | ok found =>
      rw [h.apply_ok committed]
      exact .answered found.1 found.2

/-- What is made of an answer changes nothing else. -/
theorem Performs.map (h : work.Performs s r) (f : α → β) :
    (do return f (← work) : Work ε β).Performs s (r.map fun x => (f x.1, x.2)) :=
  (h.bind fun a _ _ => performs_pure (f a)).of_eq (by cases r <;> rfl)

end Sequences

section Alone

/-- On a session of its own, a unit of work that answers is committed. -/
theorem Performs.alone_ok
    {a : α}
    (h : work.Performs s (.ok (a, t))) :
    (Work.transactional work).alone s = (.ok a, t) := by
  rw [alone, transactional_of_closed, h.apply_ok s]
  rfl

/-- On a session of its own, a unit of work that stops leaves what was committed before. -/
theorem Performs.alone_error
    {e : ε}
    (h : work.Performs s (.error e)) :
    (Work.transactional work).alone s = (.error e, s) := by
  obtain ⟨t, ht⟩ := h.apply_error s
  rw [alone, transactional_of_closed, ht]
  rfl

variable {works : List (Work Fault α)} {answers : List α}

/-- Work that answers throughout is committed if it is kept. -/
theorem alone_together_of_ok
    (keep : Bool)
    (h : (inTurn works).Performs s (.ok (answers, t))) :
    (together keep works).alone s = (.ok answers, if keep then t else s) := by
  rw [alone, together, transactional_of_closed, bind_apply, h.apply_ok s]
  cases keep <;> rfl

/-- Work that stops somewhere is rolled back as a whole. -/
theorem alone_together_of_error
    (keep : Bool) {fault : Fault}
    (h : (inTurn works).Performs s (.error (answers, fault))) :
    (together keep works).alone s = (.error (answers, fault), s) := by
  obtain ⟨t, hturn⟩ := h.apply_error s
  rw [alone, together, transactional_of_closed, bind_apply, hturn]
  rfl

end Alone

end Endings

section Lookups

variable (s : Store) (k : Kind)

theorem performs_enrol (c : Candidate Wide) :
    (enrol k c).Performs s (c.toStorable.map fun c => s.enrol k c) := by
  refine ((performs_read _).bind_read
    (q := fun x => .ok (x.2.elim ((s.keys k).nextId, s.setKeys k ((s.keys k).push x.1))
      fun row => (row.id, s))) fun x _ => ?_).of_eq ?_
  · obtain ⟨key, _ | row⟩ := x
    · exact performs_statement _
    · exact performs_pure row.id
  · cases c.toStorable with
    | error e => rfl
    | ok c =>
        show Except.ok ((s.holder? k c.key none).elim _ _) = Except.ok (s.enrol k c)
        unfold Store.enrol
        cases s.holder? k c.key none <;> rfl

theorem performs_rekey (id : Int) (key : NaturalKey String) :
    (rekey k id key).Performs s (.ok ((), s.setKeys k ((s.keys k).put id key))) :=
  performs_put _

/-- What becomes of a store in which a row gets a key that another one may hold. -/
def keyTaken (s : Store) (k : Kind) (id : Int) (key : NaturalKey String) :
    Option Lookup → Except Fault (Option Lookup × Store)
  | none => .ok (some ⟨id, key⟩, s.setKeys k ((s.keys k).put id key))
  | some other =>
    if Store.isProtected k id then do
      let t ← s.dropLookup k other.id
      .ok (some ⟨id, key⟩, t.setKeys k ((t.keys k).put id key))
    else do
      let t ← s.dropLookup k id
      .ok (some other, t)

theorem performs_takeKey (id : Int) (key : NaturalKey String) (holder? : Option Lookup) :
    (takeKey k id key holder?).Performs s (keyTaken s k id key holder?) := by
  unfold takeKey keyTaken
  cases holder? with
  | none => exact (performs_rekey s k id key).bind_ok (performs_pure _)
  | some other =>
      dsimp only
      split
      · exact (performs_write _).bind_write fun t =>
          (performs_rekey t k id key).bind_ok (performs_pure _)
      · exact (performs_write _).bind_write fun t => performs_pure (some other)

theorem performs_amend (id : Int) (p : Patch Wide) :
    (amend k id p).Performs s (s.amend k id p) := by
  unfold amend
  refine ((performs_read _).bind_read
    (q := fun row? => match row? with
      | none => .ok (none, s)
      | some row => p.toStorable >>= fun p =>
          keyTaken s k id (p.apply row.key) (s.holder? k (p.apply row.key) (some id)))
    fun row? _ => ?_).of_eq ?_
  · cases row? with
    | none => exact performs_pure none
    | some row =>
        refine ((performs_read _).bind_read
          (q := fun x => keyTaken s k id x.1 x.2) fun x _ => ?_).of_eq ?_
        · exact performs_takeKey s k id x.1 x.2
        · cases p.toStorable <;> rfl
  · unfold Store.amend Store.findLookup
    cases checkRange [id] with
    | error e => rfl
    | ok _ =>
        dsimp only [bind, Except.bind]
        cases s.lookup? k id with
        | none => rfl
        | some row =>
            cases p.toStorable with
            | error e => rfl
            | ok p =>
              dsimp only
              cases s.holder? k (p.apply row.key) (some id) <;> rfl

/-- What becomes of a store in which a row that is there is to be taken away. -/
def rowRemoved (s : Store) (id : Int) : Kind → Except Fault (Bool × Store)
  | .direct d => do
    require (id ≠ unknownId) (.protectedRow d id)
    let t ← s.dropLookup (.direct d) id
    .ok (true, t)
  | .attached a => do
    let t ← s.dropLookup (.attached a) id
    .ok (true, t)

theorem performs_remove (id : Int) :
    (remove k id).Performs s (s.remove k id) := by
  unfold remove
  refine ((performs_read _).bind_read
    (q := fun row? => match row? with
      | none => .ok (false, s)
      | some _ => rowRemoved s id k) fun row? _ => ?_).of_eq ?_
  · cases row? with
    | none => exact performs_pure false
    | some row =>
        cases k with
        | direct d =>
            exact (performs_lift _).bind_read fun _ _ =>
              (performs_write _).bind_write fun t => performs_pure true
        | attached a =>
            exact (performs_write _).bind_write fun t => performs_pure true
  · unfold Store.remove Store.findLookup
    cases checkRange [id] with
    | error e => rfl
    | ok _ =>
        dsimp only [bind, Except.bind]
        cases s.lookup? k id <;> cases k <;> rfl

end Lookups

section Records

variable (s : Store) (today : Date) (id : String)

theorem performs_attach (k : AttachedKind) (refs : List AttachedRef) :
    (attach id k refs).Performs s ((s.attach id k refs).map fun t => ((), t)) := by
  unfold attach Store.attach
  generalize uniqueRefs refs = refs
  induction refs generalizing s with
  | nil => exact performs_pure ()
  | cons r refs ih =>
      refine ((performs_write _).bind_write fun t => ih t).of_eq ?_
      rw [List.foldlM_cons]
      cases s.attachRow id k r <;> rfl

theorem performs_detachGiven (k : AttachedKind) (refs? : Option (List AttachedRef)) :
    (detachGiven id k refs?).Performs s
      (.ok ((), if refs?.isSome then s.detach id k else s)) := by
  unfold detachGiven
  split
  · exact performs_put _
  · exact performs_pure ()

theorem performs_createRecord (d : RecordDraft) :
    (createRecord today id d).Performs s
      ((s.createRecord today id d).map fun t => ((), t)) := by
  unfold createRecord
  refine (performs_look fun s => s.records.contains id).bind_ok ?_
  cases hid : s.records.contains id with
  | true =>
      rw [Store.createRecord_of_contains hid]
      exact performs_pure ()
  | false =>
      rw [Store.createRecord_of_not_contains hid]
      refine ((performs_write _).bind_write fun t => (performs_attach t id .idol _).bind_write
        fun t => (performs_write _).bind_write fun t => performs_attach t id .genre _).of_eq ?_
      simp only [bind_assoc, map_bind_eq]
      rfl

theorem performs_reviseRecord (r : RecordRevision) :
    (reviseRecord today id r).Performs s (s.reviseRecord today id r) := by
  unfold reviseRecord
  refine (performs_look fun s => s.records.get? id).bind_ok ?_
  cases hold : s.records.get? id with
  | none =>
      rw [Store.reviseRecord_of_none hold]
      exact performs_pure none
  | some old =>
      rw [Store.reviseRecord_of_some hold]
      refine (performs_detachGiven s id .genre r.attached.genre).bind_ok ?_
      refine (performs_detachGiven _ id .idol r.attached.idol).bind_ok ?_
      refine ((performs_statement _).bind fun row t _ =>
        (performs_attach t id .idol _).bind_write fun t =>
          (performs_attach t id .genre _).bind_write fun t =>
            (performs_read _).bind_read fun found _ => performs_pure (some found)).of_eq ?_
      simp only [bind_assoc]
      rfl

theorem performs_addLinks (links : List LinkDraft) :
    (addLinks today id links).Performs s (s.addLinks today id links) := by
  unfold addLinks
  refine (performs_look fun s => s.records.get? id).bind_ok ?_
  cases hold : s.records.get? id with
  | none =>
      rw [Store.addLinks_of_none hold]
      exact performs_pure none
  | some row =>
      rw [Store.addLinks_of_some hold]
      refine (performs_look _).bind_ok ?_
      unfold Store.freshLinks
      generalize freshBy LinkDraft.url _ links = fresh
      dsimp only
      split
      · exact performs_pure (some 0)
      · refine (performs_put _).bind_ok ?_
        refine ((performs_write fun t => t.insertLinks id fresh).bind_write
          fun t => performs_pure (some fresh.length)).of_eq ?_
        cases Store.insertLinks _ id fresh <;> rfl

theorem performs_deleteRecord :
    (deleteRecord id).Performs s (.ok (s.deleteRecord id)) := by
  unfold deleteRecord
  refine (performs_look fun s => s.records.contains id).bind_ok ?_
  cases hid : s.records.contains id with
  | true =>
      refine ((performs_put fun s => (s.deleteRecord id).2).bind_ok (performs_pure true)).of_eq ?_
      unfold Store.deleteRecord
      rw [if_pos hid]
  | false =>
      refine (performs_pure false).of_eq ?_
      unfold Store.deleteRecord
      rw [if_neg (by simp [hid])]

end Records

section Submissions

variable (s : Store)

theorem performs_enrolDirect (k : DirectKind) (c? : Option (Candidate Wide)) :
    (enrolDirect k c?).Performs s
      ((c?.mapM Candidate.toStorable).map fun c? => s.enrolDirect k c?) := by
  cases c? with
  | none => exact performs_pure unknownId
  | some c =>
      refine (performs_enrol s (.direct k) c).of_eq ?_
      show c.toStorable.map _ = (do return some (← c.toStorable) : Except Fault _).map _
      cases c.toStorable <;> rfl

/-- Rows that can be stored are enrolled alike, whether that is found out before or in between. -/
theorem performs_enrolRefs (direct : PerDirect (Option (Candidate Wide))) :
    (enrolRefs direct).Performs s
      ((storableDirect direct).map fun direct => s.enrolRefs direct) := by
  obtain ⟨director, studio, label, series⟩ := direct
  refine ((performs_enrolDirect s .director director).bind fun _ t _ =>
    (performs_enrolDirect t .studio studio).bind fun _ t _ =>
      (performs_enrolDirect t .label label).bind fun _ t _ =>
        (performs_enrolDirect t .series series).bind fun _ t _ => performs_pure _).of_eq ?_
  show _ = Except.map _ (do
    let director ← director.mapM Candidate.toStorable
    let studio ← studio.mapM Candidate.toStorable
    let label ← label.mapM Candidate.toStorable
    let series ← series.mapM Candidate.toStorable
    return PerDirect.mk director studio label series)
  cases director.mapM Candidate.toStorable with
  | error e => rfl
  | ok director =>
      cases studio.mapM Candidate.toStorable with
      | error e => rfl
      | ok studio =>
          cases label.mapM Candidate.toStorable with
          | error e => rfl
          | ok label => cases series.mapM Candidate.toStorable <;> rfl

theorem performs_enrolAttached (k : AttachedKind) (rows : List (AttachedCandidate Wide)) :
    (enrolAttached k rows).Performs s
      ((storableRows rows).map fun rows => s.enrolAttached k rows) := by
  unfold enrolAttached storableRows
  induction rows generalizing s with
  | nil => exact performs_pure []
  | cons a rows ih =>
      rw [List.mapM_cons, List.mapM_cons]
      refine (((performs_enrol s (.attached k) a.row).map fun id => ⟨id, a.manual⟩).bind
        fun r t _ => (ih t).bind fun rest u _ => performs_pure (r :: rest)).of_eq ?_
      rw [AttachedCandidate.toStorable]
      cases a.row.toStorable with
      | error e => rfl
      | ok row => cases rows.mapM AttachedCandidate.toStorable <;> rfl

theorem performs_enrolAttached?
    (k : AttachedKind) (rows? : Option (List (AttachedCandidate Wide))) :
    (enrolAttached? k rows?).Performs s
      ((rows?.mapM storableRows).map fun rows? => s.enrolAttached? k rows?) := by
  cases rows? with
  | none => exact performs_pure none
  | some rows =>
      refine ((performs_enrolAttached s k rows).map some).of_eq ?_
      show _ = Except.map _ (do return some (← storableRows rows))
      cases storableRows rows <;> rfl

variable (today : Date) (id : String)

theorem performs_submit (sub : Submission) :
    (submit today id sub).Performs s (s.submit today id sub) := by
  refine Performs.transactional ?_
  refine (performs_look fun s => s.records.contains id).bind_ok ?_
  cases hid : s.records.contains id with
  | true =>
      rw [Store.submit_of_contains hid]
      exact performs_read _
  | false =>
      rw [Store.submit_of_not_contains hid]
      refine ((performs_enrolRefs s _).bind fun refs t _ =>
        (performs_enrolAttached t .genre _).bind fun genre t _ =>
          (performs_enrolAttached t .idol _).bind fun idol t _ =>
            (performs_createRecord t today id _).bind_write fun t => performs_read _).of_eq ?_
      cases storableDirect sub.direct with
      | error e => rfl
      | ok direct =>
          cases storableRows sub.attached.genre with
          | error e => rfl
          | ok genre =>
              cases storableRows sub.attached.idol with
              | error e => rfl
              | ok idol =>
                  simp only [map_eq_bind]
                  rfl

theorem performs_resubmit (sub : Resubmission) :
    (resubmit today id sub).Performs s (s.resubmit today id sub) := by
  refine Performs.transactional ?_
  refine (performs_look fun s => s.records.contains id).bind_ok ?_
  cases hid : s.records.contains id with
  | false =>
      rw [Store.resubmit_of_not_contains hid]
      exact performs_pure none
  | true =>
      rw [Store.resubmit_of_contains hid]
      refine ((performs_enrolRefs s _).bind fun refs t _ =>
        (performs_enrolAttached? t .genre _).bind fun genre t _ =>
          (performs_enrolAttached? t .idol _).bind fun idol t _ =>
            performs_reviseRecord t today id _).of_eq ?_
      cases storableDirect sub.direct with
      | error e => rfl
      | ok direct =>
          cases sub.attached.genre.mapM storableRows with
          | error e => rfl
          | ok genre => cases sub.attached.idol.mapM storableRows <;> rfl

end Submissions

end Work

namespace Operation

variable {s : Store} {α : Type}

theorem performs_reading (f : Store → Except Fault α) (g : α → Answer) :
    (do return g (← Work.read f) : Work Fault Answer).Performs s
      ((f s).map fun a => (g a, s)) :=
  ((Work.performs_read f).map g).of_eq (by cases f s <;> rfl)

/-- What is done to a record starts once its id can be stored. -/
theorem performs_on
    {w : Wide} {work : String → Work Fault α} {q : String → Except Fault (α × Store)}
    (h : ∀ id, (work id).Performs s (q id)) (g : String → α → Answer) :
    (do
      let id ← w.toStorable
      return g id (← work id) : Work Fault Answer).Performs s
      (do
        let id ← w.toStorable
        let x ← q id
        .ok (g id x.1, x.2)) := by
  refine (Work.performs_lift w.toStorable).bind_read fun id _ => ?_
  refine ((h id).map (g id)).of_eq ?_
  rw [map_eq_bind]

/-- Every operation comes on a session to what it does to the store that the session sees. -/
theorem performs (today : Date) (op : Operation) (s : Store) :
    (op.perform today).Performs s (op.run today s) := by
  cases op with
  | findLookup | allLookups | listLookups | pageLookups | recordCounts | recordIds | listRecords
  | pageRecords | recordsBy => exact performs_reading _ _
  | amend k id p => exact (Work.performs_amend s k id p).map _
  | remove k id => exact (Work.performs_remove s k id).map _
  | enrol k c =>
      refine ((Work.performs_enrol s k c).map _).of_eq ?_
      simp only [map_eq_bind, bind_assoc]
      rfl
  | reviseRecord w r => exact performs_on (fun id => Work.performs_reviseRecord s today id r) _
  | addLinks w links => exact performs_on (fun id => Work.performs_addLinks s today id links) _
  | submit w sub => exact performs_on (fun id => Work.performs_submit s today id sub) _
  | resubmit w sub => exact performs_on (fun id => Work.performs_resubmit s today id sub) _
  | loadRecord w =>
      refine (performs_on (fun id => Work.performs_read fun s => s.loadRecord id) _).of_eq ?_
      simp only [map_eq_bind, bind_assoc]
      rfl
  | createRecord w d =>
      refine (performs_on (fun id => Work.performs_createRecord s today id d) _).of_eq ?_
      simp only [map_eq_bind, bind_assoc]
      rfl
  | hasRecord w =>
      refine (performs_on (fun id => Work.performs_look fun s => s.records.contains id) _).of_eq ?_
      exact (map_eq_bind _ _).symm
  | deleteRecord w =>
      refine (performs_on (fun id => Work.performs_deleteRecord s id) _).of_eq ?_
      exact (map_eq_bind _ _).symm

end Operation

section Sequences

/-- Operations as actions on a store, each on its own day. -/
def asActions (ops : List (Date × Operation)) : List (Action Answer) :=
  ops.map fun x => x.2.run x.1

variable {s : Store} {ops : List (Date × Operation)} {answers : List Answer}

/-- Operations one after the other answer alike on a session and on the stores that they hand on,
or stop at the same one with the same fault. -/
theorem performs_inTurn_cases (s : Store) (ops : List (Date × Operation)) :
    (∃ answers t, runAll s (asActions ops) = ⟨answers, none, some t⟩ ∧
      (Work.inTurn (asWorks ops)).Performs s (.ok (answers, t))) ∨
    ∃ answers fault, runAll s (asActions ops) = ⟨answers, some fault, none⟩ ∧
      (Work.inTurn (asWorks ops)).Performs s (.error (answers, fault)) := by
  induction ops generalizing s with
  | nil => exact .inl ⟨[], s, rfl, Work.performs_pure []⟩
  | cons x ops ih =>
      obtain ⟨today, op⟩ := x
      have hfirst := (op.performs today s).adapt fun fault => (([] : List Answer), fault)
      unfold asActions asWorks at ih ⊢
      simp only [List.map_cons, runAll, Work.inTurn]
      cases hrun : op.run today s with
      | error fault =>
          rw [hrun] at hfirst
          exact .inr ⟨[], fault, rfl, hfirst.bind_error⟩
      | ok found =>
          obtain ⟨a, t⟩ := found
          rw [hrun] at hfirst
          -- what comes next starts from what the first one left in the transaction
          rcases ih t with ⟨answers, u, hall, hrest⟩ | ⟨answers, fault, hall, hrest⟩
          · refine .inl ⟨a :: answers, u, by simp [hall], hfirst.bind_ok ?_⟩
            exact (hrest.adapt _).bind_ok (Work.performs_pure _)
          · refine .inr ⟨a :: answers, fault, by simp [hall], hfirst.bind_ok ?_⟩
            exact (hrest.adapt _).bind_error

theorem performs_inTurn_of_store
    {t : Store}
    (h : runAll s (asActions ops) = ⟨answers, none, some t⟩) :
    (Work.inTurn (asWorks ops)).Performs s (.ok (answers, t)) := by
  rcases performs_inTurn_cases s ops with ⟨_, _, hall, hturn⟩ | ⟨_, _, hall, _⟩
  · cases h.symm.trans hall
    exact hturn
  · cases h.symm.trans hall

theorem performs_inTurn_of_fault
    {fault : Fault}
    (h : runAll s (asActions ops) = ⟨answers, some fault, none⟩) :
    (Work.inTurn (asWorks ops)).Performs s (.error (answers, fault)) := by
  rcases performs_inTurn_cases s ops with ⟨_, _, hall, _⟩ | ⟨_, _, hall, hturn⟩
  · cases h.symm.trans hall
  · cases h.symm.trans hall
    exact hturn

end Sequences

end CardCatalog
