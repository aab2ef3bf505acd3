import CardCatalog.Calendar.Reading
import CardCatalog.Number.Shortest
import CardCatalog.Validation.Issue

/-!
# Rules for values

A rule checks one JSON value, and knows its place. Scalars are taken loosely: whole
numbers may come as texts or as doubles, truth values as words or as zero and one,
decimals as numbers or texts, and dates in all the ways of `Calendar.dateOfText` and its
companions. Texts are only texts. A wide text may hold halves of surrogate pairs, but a
text may not, and neither may one that spells a scalar.

An object is checked field by field; fields that no rule asks for are ignored.
-/

namespace CardCatalog
namespace Validation

open Calendar (Date)

/-- Checks a value at a place. -/
abbrev Rule (α : Type) := List Step → Json → Checked α

namespace Rule

variable {α : Type}

section Scalars

/-- A wide text. -/
def wideText : Rule Text.Wide := fun place j =>
  match j with
  | .text w => .valid w
  | _ => .issue .stringType place j

/-- Goes on from a wide text that is a text. -/
def ofText (place : List Step) (w : Text.Wide) (check : String → Checked α) : Checked α :=
  match w.text? with
  | some s => check s
  | none => .issue .stringUnicode place (.text w)

/-- A text. -/
def text : Rule String := fun place j =>
  (wideText place j).andThen fun w => ofText place w .valid

/-- A text whose number of characters lies between two bounds. -/
def textWithin (least most : Nat) : Rule String := fun place j =>
  (text place j).andThen fun s =>
    if s.length < least then .issue .stringTooShort place j
    else if s.length > most then .issue .stringTooLong place j
    else .valid s

/-- The words that stand for a truth value, up to the case of ASCII letters. -/
def truthWords : List (String × Bool) :=
  [("0", false), ("off", false), ("f", false), ("false", false), ("n", false),
   ("no", false), ("1", true), ("on", true), ("t", true), ("true", true), ("y", true),
   ("yes", true)]

/-- The truth value of an integer. -/
def truthOfInt? (n : Int) : Option Bool :=
  if n = 0 then some false else if n = 1 then some true else none

/-- A truth value. -/
def truth : Rule Bool := fun place j =>
  match j with
  | .bool b => .valid b
  | .text w => ofText place w fun s =>
    match truthWords.find? fun w => w.1.toList = s.toList.map Char.toLower with
    | some w => .valid w.2
    | none => .issue .boolParsing place j
  | .int n => ofInt place j n
  | .double x =>
    match x.toInt? with
    | some n => if n.natAbs < 0x8000000000000000 then ofInt place j n else .issue .boolType place j
    | none => .issue .boolType place j
  | _ => .issue .boolType place j
where
  /-- Integers beyond the stored range are no candidates for a truth value. -/
  ofInt (place : List Step) (j : Json) (n : Int) : Checked Bool :=
    match truthOfInt? n with
    | some b => .valid b
    | none =>
      if Number.InRange n then .issue .boolParsing place j else .issue .boolType place j

/-- A whole number. -/
def integer : Rule Int := fun place j =>
  match j with
  | .bool b => .valid (if b then 1 else 0)
  | .int n => .valid n
  | .double x =>
    match x with
    | .finite .. =>
      match x.toInt? with
      | some n =>
        if n.natAbs < 0x8000000000000000 then .valid n else .issue .intParsingSize place j
      | none => .issue .intFromFloat place j
    | _ => .issue .finiteNumber place j
  | .text w => ofText place w fun s =>
    match Number.integerOfText s with
    | .ok n => .valid n
    | .error .malformed => .issue .intParsing place j
    | .error .tooLong => .issue .intParsingSize place j
  | _ => .issue .intType place j

/-- A whole number that is not below a bound. -/
def atLeast (least : Int) : Rule { n : Int // least ≤ n } := fun place j =>
  (integer place j).andThen fun n =>
    if h : least ≤ n then .valid ⟨n, h⟩ else .issue .greaterThanEqual place j

/-- A whole number that is not above a bound. -/
def atMost (most : Int) : Rule { n : Int // n ≤ most } := fun place j =>
  (integer place j).andThen fun n =>
    if h : n ≤ most then .valid ⟨n, h⟩ else .issue .lessThanEqual place j

/-- A decimal number. -/
def decimal : Rule Number.Decimal := fun place j =>
  let finite (d? : Option Number.Decimal) : Checked Number.Decimal :=
    match d? with
    | some (.finite negative coefficient exponent) =>
      .valid (.finite negative coefficient exponent)
    | some _ => .issue .finiteNumber place j
    | none => .issue .decimalParsing place j
  match j with
  | .text w => finite (w.text?.bind Number.Decimal.ofText?)
  | .int n => .valid (.ofInt n)
  | .double x => finite (Number.Decimal.ofText? x.toText)
  | _ => .issue .decimalType place j

/-- The issue of a value that is not read as a date. -/
def ofMisread : Calendar.Misread → IssueKind
  | .unreadable => .dateFromDatetimeParsing
  | .notMidnight => .dateFromDatetimeInexact
  | .yearZero => .dateParsing
  | .wrongType => .dateType

/-- A date. -/
def date : Rule Date := fun place j =>
  let read (r : Except Calendar.Misread Date) : Checked Date :=
    match r with
    | .ok d => .valid d
    | .error e => .issue (ofMisread e) place j
  match j with
  | .text w => ofText place w fun s => read (Calendar.dateOfText s)
  | .int n => read (Calendar.dateOfInt n)
  | .double x => read (Calendar.dateOfDouble x)
  | _ => .issue .dateType place j

end Scalars

section Structures

/-- A value that may be null. -/
def optional (rule : Rule α) : Rule (Option α) := fun place j =>
  match j with
  | .null => .valid none
  | j => some <$> rule place j

/-- Checks the elements of a list from a position on. -/
def elements (rule : Rule α) (place : List Step) : Nat → List Json → Checked (List α)
  | _, [] => .valid []
  | n, j :: js =>
    List.cons <$> rule (place ++ [.index n]) j <*> elements rule place (n + 1) js

/-- A list. -/
def list (rule : Rule α) : Rule (List α) := fun place j =>
  match j with
  | .list js => elements rule place 0 js
  | _ => .issue .listType place j

/-- An object under inspection, and its place. -/
structure Fields where
  entries : List (Text.Wide × Json)
  place : List Step

/-- An object; `otherwise` is the issue of a value that is none. -/
def object (otherwise : IssueKind) (check : Fields → Checked α) : Rule α := fun place j =>
  match j with
  | .object entries => check ⟨entries, place⟩
  | _ => .issue otherwise place j

/-- A field that must be there. -/
def Fields.required (f : Fields) (name : String) (rule : Rule α) : Checked α :=
  match Json.get? f.entries (.ofText name) with
  | some j => rule (f.place ++ [.field name]) j
  | none => .issue .missing (f.place ++ [.field name]) (.object f.entries)

/-- A field with a value to take when it is missing. -/
def Fields.withDefault (f : Fields) (name : String) (default : α) (rule : Rule α) :
    Checked α :=
  match Json.get? f.entries (.ofText name) with
  | some j => rule (f.place ++ [.field name]) j
  | none => .valid default

/-- A field that may be missing or null. -/
def Fields.optional (f : Fields) (name : String) (rule : Rule α) : Checked (Option α) :=
  f.withDefault name none rule.optional

end Structures

end Rule
end Validation
end CardCatalog
