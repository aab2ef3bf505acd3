import CardCatalog.Store.Records

/-!
# Writes past the rules

Repairs, and damage to be repaired, are written straight into the tables: rows under
chosen ids, duplicates of natural keys, and references to rows that do not exist. Only
ranges and uniqueness hold for them still.
-/

namespace CardCatalog

open Calendar (Date)
open Text (Wide)

namespace Store

variable (s : Store)

/-- Puts a reference row in, under the given id or the next one. -/
def putLookup (k : Kind) (id? : Option Int) (c : Candidate Wide) : Except Fault Store := do
  let keys := s.keys k
  let id := id?.getD keys.nextId
  checkRange [id]
  let c ← c.toStorable
  require (keys.contains id = false) (.duplicate (.id (.lookup k)))
  .ok (s.setKeys k (keys.put id c.key))

/-- Puts a record in that has nothing but its id; its references have to resolve. -/
def putRecord (today : Date) (id : Wide) : Except Fault Store := do
  let id ← id.toStorable
  require (s.records.contains id = false) (.duplicate (.id .record))
  require (s.Resolves unknownRefs) .missingParent
  let row : RecordRow :=
    { details := { title := untitled }
      refs := unknownRefs
      created := today
      updated := today
      creator := defaultEditor
      modifiedBy := defaultEditor }
  .ok { s with records := s.records.put id row }

/-- Takes a reference row away and leaves everything that points at it. -/
def eraseLookup (k : Kind) (id : Int) : Except Fault Store := do
  checkRange [id]
  .ok (s.setKeys k ((s.keys k).erase id))

/-- Points a record at a row, whether it exists or not. -/
def pointRecord (id : Wide) (k : DirectKind) (target : Int) : Except Fault Store := do
  checkRange [target]
  let id ← id.toStorable
  match s.records.get? id with
  | none => .ok s
  | some row =>
    let row := { row with refs := row.refs.set k target }
    .ok { s with records := s.records.put id row }

/-- Attaches a row to a record, whether they exist or not. The two columns are written in the
order in which they stand in the table. -/
def putAttached (id : Wide) (k : AttachedKind) (target : Int) (manual : Bool) :
    Except Fault Store := do
  match k with
  | .genre => pure ()
  | .idol => checkRange [target]
  s.putAttachment k (← id.toStorable) target manual

end Store
end CardCatalog
