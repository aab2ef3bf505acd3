import CardCatalog.Session.Basic

/-!
# Operations on a session

An operation is carried out statement by statement, each of which sees what the ones before it
have written.  Rows are looked for before they are written.  A record is written before the rows
that point at it, and those one by one; a submission enrols its rows one by one before that, and
is a unit of work.

So an operation that stops may have written already: rows that a submission named, a record
without the rest of its attachments.  It is for whoever opened the transaction to roll that back.
-/

namespace CardCatalog

open Calendar (Date)
open Text (Wide)

namespace Work

section Lookups

/-- Enrols a candidate: looks for the first row that holds its key, and inserts one if there is
none. -/
def enrol (k : Kind) (c : Candidate Wide) : Work Fault Int := do
  let (key, holder?) ← read fun s => do
    let c ← c.toStorable
    return (c.key, s.holder? k c.key none)
  match holder? with
  | some row => return row.id
  | none =>
    statement fun s => .ok ((s.keys k).nextId, s.setKeys k ((s.keys k).push key))

/-- Gives a row another key. -/
def rekey (k : Kind) (id : Int) (key : NaturalKey String) : Work Fault Unit :=
  write fun s => .ok (s.setKeys k ((s.keys k).put id key))

/-- Gives a row a key that another one may hold; then one of the two is taken away, which is the
other one if the row is protected. -/
def takeKey (k : Kind) (id : Int) (key : NaturalKey String) (holder? : Option Lookup) :
    Work Fault (Option Lookup) :=
  match holder? with
  | none => do
    rekey k id key
    return some ⟨id, key⟩
  | some other =>
    if Store.isProtected k id then do
      write fun s => s.dropLookup k other.id
      rekey k id key
      return some ⟨id, key⟩
    else do
      write fun s => s.dropLookup k id
      return some other

/-- Patches a row, and merges it with the first other row that holds the new key. -/
def amend (k : Kind) (id : Int) (p : Patch Wide) : Work Fault (Option Lookup) := do
  match ← read fun s => s.findLookup k id with
  | none => return none
  | some row =>
    let (key, holder?) ← read fun s => do
      let p ← p.toStorable
      let key := p.apply row.key
      return (key, s.holder? k key (some id))
    takeKey k id key holder?

/-- Takes a row away, unless it is the unknown row of a direct kind. -/
def remove (k : Kind) (id : Int) : Work Fault Bool := do
  match ← read fun s => s.findLookup k id with
  | none => return false
  | some _ =>
    match k with
    | .direct d => require (id ≠ unknownId) (.protectedRow d id)
    | .attached _ => pure ()
    write fun s => s.dropLookup k id
    return true

end Lookups

section Records

/-- Attaches rows to a record one after the other, each row once. -/
def attach (id : String) (k : AttachedKind) (refs : List AttachedRef) : Work Fault Unit :=
  (uniqueRefs refs).forM fun r => write fun s => s.attachRow id k r

/-- Detaches all rows of a kind from a record, if others are given. -/
def detachGiven (id : String) (k : AttachedKind) (refs? : Option (List AttachedRef)) :
    Work Fault Unit :=
  if refs?.isSome then write fun s => .ok (s.detach id k) else return ()

/-- Creates a record, and then what points at it; a record that exists is left as it is. -/
def createRecord (today : Date) (id : String) (d : RecordDraft) : Work Fault Unit := do
  if ← read fun s => .ok (s.records.contains id) then return ()
  else
    write fun s => do
      let row ← d.toStorable today
      require (s.Resolves d.refs) .missingParent
      return { s with records := s.records.put id row }
    attach id .idol d.attached.idol
    write fun s => s.insertLinks id d.links
    attach id .genre d.attached.genre

/-- Replaces the contents of a record, and reads it back. -/
def reviseRecord (today : Date) (id : String) (r : RecordRevision) :
    Work Fault (Option Aggregate) := do
  match ← read fun s => .ok (s.records.get? id) with
  | none => return none
  | some old =>
    detachGiven id .genre r.attached.genre
    detachGiven id .idol r.attached.idol
    let row ← statement fun s => do
      let row ← r.toStorable today old
      require
        (∀ k ∈ DirectKind.all, r.refs.get k = old.refs.get k
          ∨ (s.keys (.direct k)).contains (r.refs.get k) = true)
        .missingParent
      return (row, { s with records := s.records.put id row })
    attach id .idol (r.attached.idol.getD [])
    attach id .genre (r.attached.genre.getD [])
    let found ← read fun s => s.assemble id row
    return some found

/-- Adds the links whose address the record does not have yet, and answers their number. -/
def addLinks (today : Date) (id : String) (links : List LinkDraft) :
    Work Fault (Option Nat) := do
  match ← read fun s => .ok (s.records.get? id) with
  | none => return none
  | some row =>
    let urls ← read fun s => .ok ((s.linksOf id).map fun l => Wide.ofText l.2.url)
    let fresh := freshBy LinkDraft.url urls links
    if fresh.isEmpty then return some 0
    else
      let details := { row.details with hasLinks := true }
      write fun s =>
        .ok { s with records := s.records.put id { row with details, updated := today } }
      write fun s => s.insertLinks id fresh
      return some fresh.length

/-- Deletes a record, and what points at it. -/
def deleteRecord (id : String) : Work Fault Bool := do
  if ← read fun s => .ok (s.records.contains id) then
    write fun s => .ok (s.deleteRecord id).2
    return true
  else return false

end Records

section Submissions

/-- The id of a direct row given by value, or of the unknown row. -/
def enrolDirect (k : DirectKind) (c? : Option (Candidate Wide)) : Work Fault Int :=
  match c? with
  | none => return unknownId
  | some c => enrol (.direct k) c

/-- The ids of the direct rows of a record. -/
def enrolRefs (direct : PerDirect (Option (Candidate Wide))) : Work Fault (PerDirect Int) := do
  let director ← enrolDirect .director direct.director
  let studio ← enrolDirect .studio direct.studio
  let label ← enrolDirect .label direct.label
  let series ← enrolDirect .series direct.series
  return ⟨director, studio, label, series⟩

/-- The ids of rows to attach. -/
def enrolAttached (k : AttachedKind) (rows : List (AttachedCandidate Wide)) :
    Work Fault (List AttachedRef) :=
  rows.mapM fun a => do
    let id ← enrol (.attached k) a.row
    return ⟨id, a.manual⟩

/-- The ids of rows to attach, if any are given. -/
def enrolAttached? (k : AttachedKind) (rows? : Option (List (AttachedCandidate Wide))) :
    Work Fault (Option (List AttachedRef)) :=
  rows?.mapM (enrolAttached k)

/-- Creates a record by value as one unit of work; a record that exists is read as it is. -/
def submit (today : Date) (id : String) (sub : Submission) : Work Fault (Option Aggregate) :=
  transactional do
    if ← read fun s => .ok (s.records.contains id) then read fun s => s.loadRecord id
    else
      let refs ← enrolRefs sub.direct
      let genre ← enrolAttached .genre sub.attached.genre
      let idol ← enrolAttached .idol sub.attached.idol
      createRecord today id
        { details := sub.details
          refs
          attached := ⟨genre, idol⟩
          links := sub.links
          creator := sub.creator
          modifiedBy := sub.modifiedBy }
      read fun s => s.loadRecord id

/-- Replaces the contents of a record by value as one unit of work. -/
def resubmit (today : Date) (id : String) (sub : Resubmission) :
    Work Fault (Option Aggregate) :=
  transactional do
    if ← read fun s => .ok (s.records.contains id) then
      let refs ← enrolRefs sub.direct
      let genre ← enrolAttached? .genre sub.attached.genre
      let idol ← enrolAttached? .idol sub.attached.idol
      reviseRecord today id
        { details := sub.details
          refs
          attached := ⟨genre, idol⟩
          modifiedBy := sub.modifiedBy }
    else return none

end Submissions

end Work

/-- Carries an operation out on a session, on a given day. -/
def Operation.perform (today : Date) (op : Operation) : Work Fault Answer := do
  match op with
  | findLookup k id => return .lookup (← Work.read fun s => s.findLookup k id)
  | allLookups k => return .lookups (← Work.read fun s => .ok (s.lookupRows k))
  | listLookups k f => return .lookups (← Work.read fun s => s.listLookups k f)
  | pageLookups k f q => return .lookupPage (← Work.read fun s => s.pageLookups k f q)
  | enrol k c => return .lookupId (← Work.enrol k c)
  | amend k id p => return .lookup (← Work.amend k id p)
  | remove k id => return .flag (← Work.remove k id)
  | recordCounts k => return .counts (← Work.read fun s => .ok (s.recordCounts k))
  | loadRecord id =>
    let id ← id.toStorable
    return .record (← Work.read fun s => s.loadRecord id)
  | hasRecord id =>
    let id ← id.toStorable
    return .flag (← Work.read fun s => .ok (s.records.contains id))
  | recordIds => return .recordIds (← Work.read fun s => .ok s.recordIds)
  | listRecords f => return .records (← Work.read fun s => s.listRecords f)
  | pageRecords f q => return .recordPage (← Work.read fun s => s.pageRecords f q)
  | recordsBy k id q => return .recordPage (← Work.read fun s => s.recordsBy k id q)
  | createRecord id d =>
    let id ← id.toStorable
    Work.createRecord today id d
    return .recordId id
  | reviseRecord id r =>
    let id ← id.toStorable
    return .record (← Work.reviseRecord today id r)
  | addLinks id links =>
    let id ← id.toStorable
    return .added (← Work.addLinks today id links)
  | deleteRecord id =>
    let id ← id.toStorable
    return .flag (← Work.deleteRecord id)
  | submit id sub =>
    let id ← id.toStorable
    return .record (← Work.submit today id sub)
  | resubmit id sub =>
    let id ← id.toStorable
    return .record (← Work.resubmit today id sub)

/-- Operations as work on a session, each on its own day. -/
def asWorks (ops : List (Date × Operation)) : List (Work Fault Answer) :=
  ops.map fun x => x.2.perform x.1

end CardCatalog
