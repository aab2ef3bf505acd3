import CardCatalog.Page
import CardCatalog.Store.Basic

/-!
# Reference rows in a store

Rows are read by id, by filter and by page, always in ascending order of ids. They are
written by three operations that keep natural keys from being doubled:

* `enrol` answers the first row that holds a candidate's key and adds one only if there is
  none;
* `amend` patches a row, and merges it with the first other row that holds the new key;
* `remove` takes a row away. Records that pointed at it point at the unknown row, and
  attachments to it go with it.

The unknown row of a direct kind is never taken away: `remove` refuses, and `amend` takes
the other row instead.
-/

namespace CardCatalog
namespace Store

section Reading

variable (s : Store) (k : Kind)

/-- The rows of a kind. -/
def lookupRows : List Lookup :=
  (s.keys k).rows.map fun e => ⟨e.1, e.2⟩

/-- The row of an id. -/
def lookup? (id : Int) : Option Lookup :=
  ((s.keys k).get? id).map fun key => ⟨id, key⟩

/-- Finds a row by its id. -/
def findLookup (id : Int) : Except Fault (Option Lookup) := do
  checkRange [id]
  .ok (s.lookup? k id)

/-- The rows that a filter accepts. Names are searched in the rows of the wanted id, and links
in those of them that have the wanted name. -/
def listLookups (f : LookupFilter) : Except Fault (List Lookup) := do
  checkRange f.id?.toList
  let name? ← patternOf f.name?
  let link? ← patternOf f.link?
  let rows := (s.lookupRows k).filter fun row => meetsId f.id? row.id
  checkSearch name? rows
  checkSearch link? (rows.filter fun row => meetsPart f.name? row.key.name)
  .ok ((s.lookupRows k).filter f.accepts)

/-- One page of the rows that a filter accepts. -/
def pageLookups (f : LookupFilter) (q : PageRequest) : Except Fault (Page Lookup) :=
  Page.query q ((s.listLookups k f).map fun rows => rows.length) fun offset limit => do
    checkRange [offset, limit]
    let rows ← s.listLookups k f
    .ok (fetched offset limit rows)

/-- The first row that holds a key, and is not the excluded one. -/
def holder? (key : NaturalKey String) (excluded? : Option Int) : Option Lookup :=
  (s.lookupRows k).find? fun row => row.key = key && some row.id ≠ excluded?

/-- How often a row is pointed at, by records or by attachments. -/
def uses (id : Int) : Nat :=
  match k with
  | .direct d => s.records.rows.countP fun e => e.2.refs.get d = id
  | .attached a => (s.attachments.get a).rows.countP fun e => e.2.target = id

/-- The rows of a kind with their uses, the most used first, and by id among equals. -/
def recordCounts : List RecordCount :=
  let counts := (s.lookupRows k).map fun row => ⟨row.id, row.key.name, s.uses k row.id⟩
  counts.mergeSort fun a b => b.count ≤ a.count

end Reading

section Writing

variable (s : Store) (k : Kind)

/-- The id of the first row that holds a candidate's key; it is added if there is none. -/
def enrol (c : Candidate String) : Int × Store :=
  match s.holder? k c.key none with
  | some row => (row.id, s)
  | none => ((s.keys k).nextId, s.setKeys k ((s.keys k).push c.key))

/-- The store without a row: references to it fall back to the unknown row, which has to
exist then, and attachments to it are gone. -/
def dropLookup (id : Int) : Except Fault Store :=
  let keys := (s.keys k).erase id
  match k with
  | .direct d => do
    require (s.uses k id = 0 ∨ keys.contains unknownId) .missingParent
    let records := s.records.map fun _ row =>
      if row.refs.get d = id then { row with refs := row.refs.set d unknownId } else row
    .ok { s.setKeys k keys with records }
  | .attached a =>
    let kept := (s.attachments.get a).filter fun _ x => x.target ≠ id
    .ok ((s.setKeys k keys).setAttachments a kept)

/-- Whether the row of an id is the unknown row of a direct kind. -/
def isProtected : Kind → Int → Bool
  | .direct _, id => id = unknownId
  | .attached _, _ => false

/-- Patches a row, and answers the row that holds the new key then. A patch that cannot be
stored is refused if there is a row to patch. -/
def amend (id : Int) (p : Patch Text.Wide) : Except Fault (Option Lookup × Store) := do
  checkRange [id]
  match s.lookup? k id with
  | none => .ok (none, s)
  | some row =>
    let p ← p.toStorable
    let key := p.apply row.key
    match s.holder? k key (some id) with
    | none => .ok (some ⟨id, key⟩, s.setKeys k ((s.keys k).put id key))
    | some other =>
      if isProtected k id then
        let s' ← s.dropLookup k other.id
        .ok (some ⟨id, key⟩, s'.setKeys k ((s'.keys k).put id key))
      else
        let s' ← s.dropLookup k id
        .ok (some other, s')

/-- Takes a row away, and answers whether there was one. -/
def remove (id : Int) : Except Fault (Bool × Store) := do
  checkRange [id]
  match s.lookup? k id, k with
  | none, _ => .ok (false, s)
  | some _, .direct d =>
    require (id ≠ unknownId) (.protectedRow d id)
    let s' ← s.dropLookup k id
    .ok (true, s')
  | some _, .attached _ =>
    let s' ← s.dropLookup k id
    .ok (true, s')

end Writing

end Store
end CardCatalog
