import CardCatalog.Store.Assembly

/-!
# Records in a store

Records are listed in ascending order of their ids. Listings cut their page out of the
bare rows and assemble only the rows of that page, so a broken reference shows on its own
page alone.

A write goes through its rows in a fixed order: the record, its idols, its links, its
genres. The first row that a table refuses stops it, and the store stays as it was.
-/

namespace CardCatalog

open Calendar (Date)

/-- The row that is stored for a draft. -/
def RecordDraft.toStorable (today : Date) (d : RecordDraft) : Storable RecordRow := do
  let title ← d.details.title.toStorable
  checkRange (d.details.integers ++ DirectKind.all.map d.refs.get)
  let creator ← d.creator.toStorable
  let modifiedBy ← d.modifiedBy.toStorable
  let hasLinks := d.details.hasLinks || !d.links.isEmpty
  .ok
    { details := { d.details.withTitle title with hasLinks }
      refs := d.refs
      created := today
      updated := today
      creator
      modifiedBy }

/-- The row that is stored for a revision of another one. -/
def RecordRevision.toStorable (today : Date) (row : RecordRow) (r : RecordRevision) :
    Storable RecordRow := do
  let title ← r.details.title.toStorable
  checkRange (r.details.integers ++ DirectKind.all.map r.refs.get)
  let modifiedBy ← r.modifiedBy.toStorable
  .ok
    { row with
      details := r.details.withTitle title
      refs := r.refs
      updated := today
      modifiedBy }

namespace Store

section Reading

variable (s : Store)

/-- The ids of all records. -/
def recordIds : List String :=
  s.records.rows.map (·.1)

/-- The records whose last wanted reference is the wanted one; the others are not looked
at. -/
def indexedRecords (f : RecordFilter) : List (String × RecordRow) :=
  match DirectKind.all.reverse.find? fun k => (f.refs.get k).isSome with
  | some k => s.records.rows.filter fun e => meetsId (f.refs.get k) (e.2.refs.get k)
  | none => s.records.rows

/-- The records that a filter accepts. Ids are searched first, and then titles in the records
of the wanted id. -/
def matchingRecords (f : RecordFilter) : Except Fault (List (String × RecordRow)) := do
  let id? ← patternOf f.id?
  let title? ← patternOf f.title?
  checkRange (DirectKind.all.filterMap f.refs.get)
  let rows := s.indexedRecords f
  checkSearch id? rows
  checkSearch title? (rows.filter fun e => meetsPart f.id? e.1)
  .ok (s.records.rows.filter fun e => f.accepts e.1 e.2)

/-- The records that a row is found with: those that point at it, or those joined with the
attachments to it, where a record comes once for each of its attachments. -/
def recordsWith (k : Kind) (target : Int) : List (String × RecordRow) :=
  match k with
  | .direct d => s.records.rows.filter fun e => e.2.refs.get d = target
  | .attached a =>
    s.records.rows.flatMap fun e =>
      ((s.attachments.get a).rows.filter fun x =>
        x.2.record = e.1 ∧ x.2.target = target).map fun _ => e

/-- The aggregates of the records that a filter accepts. -/
def listRecords (f : RecordFilter) : Except Fault (List Aggregate) := do
  let rows ← s.matchingRecords f
  rows.mapM fun e => s.assemble e.1 e.2

/-- One page of the records that a filter accepts. -/
def pageRecords (f : RecordFilter) (q : PageRequest) : Except Fault (Page Aggregate) := do
  let rows ← s.matchingRecords f
  (Page.inMemory rows q).mapM fun e => s.assemble e.1 e.2

/-- One page of the records that a row is found with. -/
def recordsBy (k : Kind) (target : Int) (q : PageRequest) :
    Except Fault (Page Aggregate) := do
  checkRange [target]
  (Page.inMemory (s.recordsWith k target) q).mapM fun e => s.assemble e.1 e.2

end Reading

section Writing

variable (s : Store)

/-- Puts an attachment in, whether the record and the row exist or not. -/
def putAttachment (k : AttachedKind) (id : String) (target : Int) (manual : Bool) :
    Except Fault Store := do
  let rows := s.attachments.get k
  checkRange [target]
  require (∀ e ∈ rows.rows, ¬(e.2.record = id ∧ e.2.target = target))
    (.duplicate (.attachment k))
  .ok (s.setAttachments k (rows.push ⟨id, target, manual⟩))

/-- Attaches a row, which has to exist, to a record. -/
def attachRow (id : String) (k : AttachedKind) (r : AttachedRef) : Except Fault Store := do
  let s' ← s.putAttachment k id r.id r.manual
  require ((s.keys (.attached k)).contains r.id = true) .missingParent
  .ok s'

/-- Attaches rows to a record one after the other, each row once. -/
def attach (id : String) (k : AttachedKind) (refs : List AttachedRef) :
    Except Fault Store :=
  (uniqueRefs refs).foldlM (fun s r => s.attachRow id k r) s

/-- Detaches all rows of a kind from a record. -/
def detach (id : String) (k : AttachedKind) : Store :=
  s.setAttachments k ((s.attachments.get k).filter fun _ x => x.record ≠ id)

/-- Adds links to a record. -/
def insertLinks (id : String) (links : List LinkDraft) : Except Fault Store := do
  let rows ← links.mapM (LinkDraft.toStorable id)
  .ok { s with links := s.links.pushAll rows }

/-- Creates a record; a record that exists is left as it is. -/
def createRecord (today : Date) (id : String) (d : RecordDraft) : Except Fault Store :=
  if s.records.contains id then .ok s
  else do
    let row ← d.toStorable today
    require (s.Resolves d.refs) .missingParent
    let s := { s with records := s.records.put id row }
    let s ← s.attach id .idol d.attached.idol
    let s ← s.insertLinks id d.links
    s.attach id .genre d.attached.genre

/-- Replaces the contents of a record, and answers the record as it is then. Of the
references, only those that change have to find their row. -/
def reviseRecord (today : Date) (id : String) (r : RecordRevision) :
    Except Fault (Option Aggregate × Store) :=
  match s.records.get? id with
  | none => .ok (none, s)
  | some old => do
    let replaced (k : AttachedKind) (s : Store) : Store :=
      if (r.attached.get k).isSome then s.detach id k else s
    let s := replaced .idol (replaced .genre s)
    let row ← r.toStorable today old
    require
      (∀ k ∈ DirectKind.all, r.refs.get k = old.refs.get k
        ∨ (s.keys (.direct k)).contains (r.refs.get k) = true)
      .missingParent
    let s := { s with records := s.records.put id row }
    let s ← s.attach id .idol (r.attached.idol.getD [])
    let s ← s.attach id .genre (r.attached.genre.getD [])
    let found ← s.assemble id row
    .ok (some found, s)

/-- Adds the links whose address the record does not have yet, and answers their
number. -/
def addLinks (today : Date) (id : String) (links : List LinkDraft) :
    Except Fault (Option Nat × Store) :=
  match s.records.get? id with
  | none => .ok (none, s)
  | some row =>
    let urls := (s.linksOf id).map fun l => Text.Wide.ofText l.2.url
    let fresh := freshBy LinkDraft.url urls links
    if fresh.isEmpty then .ok (some 0, s)
    else do
      let row :=
        { row with details := { row.details with hasLinks := true }, updated := today }
      let s := { s with records := s.records.put id row }
      let s ← s.insertLinks id fresh
      .ok (some fresh.length, s)

/-- Deletes a record with its attachments and links, and answers whether there was one. -/
def deleteRecord (id : String) : Bool × Store :=
  if s.records.contains id then
    let s := (s.detach id .genre).detach id .idol
    (true,
      { s with
        records := s.records.erase id
        links := s.links.filter fun _ l => l.record ≠ id })
  else (false, s)

end Writing

end Store
end CardCatalog
