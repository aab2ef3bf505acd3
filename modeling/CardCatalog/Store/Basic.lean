import CardCatalog.Fault
import CardCatalog.Number.Integer
import CardCatalog.Record
import CardCatalog.Table

/-!
# The store

A store holds one table of natural keys for each kind of reference row, the records, one
table of attachments for each attached kind, and the links. A fresh store is `seeded`:
every direct kind has a row that stands for an unknown one.

Writes obey the rules of the tables: texts can be stored, integers lie in the stored range,
rows point at rows that exist, and an attachment occurs once. `toStorable`, `checkRange` and
`require` state them. What is looked for has to be storable, too, and where rows are searched
for a part, its pattern must not be too long (`patternOf`, `checkSearch`).
-/

namespace CardCatalog

/-- Everything that is stored. -/
structure Store where
  lookups : PerKind (Table Int (NaturalKey String))
  records : Table String RecordRow
  attachments : PerAttached (Table Int Attachment)
  links : Table Int LinkRow
  deriving DecidableEq

/-- Refuses integers outside the stored range. -/
def checkRange (ns : List Int) : Except Fault Unit :=
  if ns.all fun n => Number.InRange n then .ok () else .error .outOfRange

/-- Refuses a write that does not meet a condition. -/
def require (p : Prop) [Decidable p] (fault : Fault) : Except Fault Unit :=
  if p then .ok () else .error fault

section Searching

/-- The pattern of the part that a criterion asks for. -/
def patternOf (criterion? : Option Text.Wide) : Storable (Option String) :=
  (wantedPart? criterion?).mapM fun part => (Text.partPattern part).toStorable

/-- The most bytes of a pattern, with one at each of its ends. -/
def longestPattern : Nat := 50000

/-- Refuses too long a pattern, if there are any rows to be searched with it. -/
def checkSearch {α : Type} (pattern? : Option String) (rows : List α) : Except Fault Unit :=
  match pattern? with
  | none => .ok ()
  | some pattern => require (rows.isEmpty ∨ pattern.utf8ByteSize + 2 ≤ longestPattern) .longPattern

end Searching

namespace Store

/-- The store without rows. -/
def empty : Store where
  lookups := ⟨⟨.empty, .empty, .empty, .empty⟩, ⟨.empty, .empty⟩⟩
  records := .empty
  attachments := ⟨.empty, .empty⟩
  links := .empty

instance : Inhabited Store := ⟨empty⟩

/-- The keys of a kind. -/
def keys (s : Store) (k : Kind) : Table Int (NaturalKey String) :=
  s.lookups.get k

/-- Replaces the keys of a kind. -/
def setKeys (s : Store) (k : Kind) (keys : Table Int (NaturalKey String)) : Store :=
  { s with lookups := s.lookups.set k keys }

/-- Replaces the attachments of a kind. -/
def setAttachments (s : Store) (k : AttachedKind) (rows : Table Int Attachment) : Store :=
  { s with attachments := s.attachments.set k rows }

@[simp] theorem keys_setKeys (s : Store) (k k' : Kind) (t : Table Int (NaturalKey String)) :
    (s.setKeys k t).keys k' = if k' = k then t else s.keys k' := by
  simp [keys, setKeys]

/-- The key of the row that stands for an unknown one. -/
def unknownKey (k : DirectKind) : NaturalKey String :=
  ⟨"Unknown " ++ k.displayName, "", false⟩

/-- Gives a direct kind its unknown row, unless it has rows. -/
def seedKind (s : Store) (k : DirectKind) : Store :=
  let keys := s.keys (.direct k)
  if keys.rows.isEmpty then s.setKeys (.direct k) (keys.push (unknownKey k)) else s

/-- Gives every direct kind without rows its unknown row. -/
def seed (s : Store) : Store :=
  DirectKind.all.foldl seedKind s

/-- A fresh store. -/
def seeded : Store := empty.seed

end Store
end CardCatalog
