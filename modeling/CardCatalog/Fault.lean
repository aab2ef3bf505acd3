import CardCatalog.Json.Shown
import CardCatalog.TableName

/-!
# Faults

The causes for which an operation of the catalog stops. A fault says what was wrong;
`message` is its wording. What a table refuses (`missingParent`, `duplicate`,
`missingSize`, `outOfRange`, `longPattern`) is worded as the table's own complaint.

What a client sends is wide text, and what is stored is text. `toStorable` leads from one to
the other, and faults where there is no way.
-/

namespace CardCatalog

/-- What must not occur twice: an id of a table, or an attachment of a record. -/
inductive Unique where
  | id (table : TableName)
  | attachment (kind : AttachedKind)
  deriving DecidableEq, Repr

/-- The cause for which an operation stops. -/
inductive Fault where
  /-- A text names no kind; it is kept in its shown form. -/
  | unknownKind (shown : String)
  /-- A record points at a row that does not exist. -/
  | brokenReference (record : String) (kind : DirectKind) (missing : Int)
  /-- The fallback row of a direct kind was to be removed. -/
  | protectedRow (kind : DirectKind) (id : Int)
  /-- A written row would point at a row that does not exist. -/
  | missingParent
  /-- A written row would repeat what must be unique. -/
  | duplicate (of : Unique)
  /-- A written link has a size that is no number. -/
  | missingSize
  /-- A written link has a size that forbids to be taken for a number. -/
  | signalingSize
  /-- An integer does not fit into a column. -/
  | outOfRange
  /-- A page of no rows was asked for. -/
  | zeroLimit
  /-- An entry of a list of texts is no text. -/
  | notText (entry : Json.NotText)
  /-- Texts were to be searched for a part with too long a pattern. -/
  | longPattern
  /-- A text to be stored holds half of a surrogate pair. -/
  | unstorable (text : Text.Wide)
  deriving DecidableEq, Repr

namespace Unique

/-- The columns that are unique together. -/
def columns : Unique → List String
  | id t => [t.text ++ ".id"]
  | attachment k =>
    let table := (TableName.attachment k).text
    [table ++ ".record_id", table ++ "." ++ (Kind.attached k).column]

end Unique

namespace Fault

/-- Whether a code is half of a surrogate pair. -/
def isHalf (c : Text.Code) : Bool :=
  c.char?.isNone

/-- The place of the first refused half of a surrogate pair, and the halves that stand
together from there on. -/
def firstHalves (isRefused : Text.Code → Bool) (codes : List Text.Code) :
    Nat × List Text.Code :=
  let start := (codes.takeWhile (!isRefused ·)).length
  (start, (codes.drop start).takeWhile isHalf)

/-- The wording for a text with refused halves of surrogate pairs. -/
def refusedHalvesMessage (isRefused : Text.Code → Bool) (w : Text.Wide) : String :=
  let (start, halves) := firstHalves isRefused w.codes
  let what :=
    match halves with
    | [half] =>
      "character '" ++ String.ofList (Text.codeEscape half.toNat) ++ "' in position "
        ++ toString start
    | _ =>
      "characters in position " ++ toString start ++ "-"
        ++ toString (start + halves.length - 1)
  "'utf-8' codec can't encode " ++ what ++ ": surrogates not allowed"

/-- The wording of a fault. -/
def message : Fault → String
  | unknownKind shown => "Unknown lookup kind: " ++ shown
  | brokenReference _ kind _ => kind.displayName ++ " not found"
  | protectedRow kind id =>
    "Unknown " ++ kind.name ++ " (id=" ++ toString id ++ ") cannot be deleted"
  | missingParent => "FOREIGN KEY constraint failed"
  | duplicate u => "UNIQUE constraint failed: " ++ ", ".intercalate u.columns
  | missingSize => "NOT NULL constraint failed: links.size"
  | signalingSize => "cannot convert signaling NaN to float"
  | outOfRange => "Python int too large to convert to SQLite INTEGER"
  | zeroLimit => "integer division or modulo by zero"
  | notText entry => "'" ++ entry.found ++ "' object has no attribute 'strip'"
  | longPattern => "LIKE or GLOB pattern too complex"
  | unstorable w => refusedHalvesMessage isHalf w

end Fault

/-- What is stored of given contents, or the fault that comes of storing them. -/
abbrev Storable (α : Type) := Except Fault α

namespace Text.Wide

/-- A text to be stored. -/
def toStorable (w : Wide) : Storable String :=
  match w.text? with
  | some s => .ok s
  | none => .error (.unstorable w)

/-- Text without halves can be stored. -/
@[simp] theorem toStorable_ofText (s : String) : (ofText s).toStorable = .ok s := by
  simp [toStorable]

end Text.Wide

/-- The kind that a value names, in its plain form. -/
def Kind.ofJson (j : Json) : Except Fault Kind :=
  match Kind.ofText? j.plain with
  | some k => .ok k
  | none => .error (.unknownKind j.shown)

end CardCatalog
