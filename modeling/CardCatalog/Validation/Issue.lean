import CardCatalog.Json.Basic

/-!
# Issues and checked values

Validation does not stop at the first thing that is wrong. A checked value is either valid
or a list of issues that is not empty, and combining checked values collects the issues of
all of them in order. An issue says what is wrong, where, and with which value.

Results: a combination is valid exactly if its parts are (`seq_eq_valid_iff`), and the
issues of a combination are those of its parts, in order (`issues_seq`).
-/

namespace CardCatalog
namespace Validation

/-- What can be wrong with a value. -/
inductive IssueKind where
  | missing
  | modelType
  | modelAttributesType
  | listType
  | stringType
  | stringUnicode
  | stringTooShort
  | stringTooLong
  | enumeration
  | boolType
  | boolParsing
  | intType
  | intParsing
  | intParsingSize
  | intFromFloat
  | greaterThanEqual
  | lessThanEqual
  | dateType
  | dateParsing
  | dateFromDatetimeParsing
  | dateFromDatetimeInexact
  | decimalType
  | decimalParsing
  | finiteNumber
  | jsonInvalid
  deriving DecidableEq, Repr

/-- The word by which an issue is reported. -/
def IssueKind.word : IssueKind → String
  | missing => "missing"
  | modelType => "model_type"
  | modelAttributesType => "model_attributes_type"
  | listType => "list_type"
  | stringType => "string_type"
  | stringUnicode => "string_unicode"
  | stringTooShort => "string_too_short"
  | stringTooLong => "string_too_long"
  | enumeration => "enum"
  | boolType => "bool_type"
  | boolParsing => "bool_parsing"
  | intType => "int_type"
  | intParsing => "int_parsing"
  | intParsingSize => "int_parsing_size"
  | intFromFloat => "int_from_float"
  | greaterThanEqual => "greater_than_equal"
  | lessThanEqual => "less_than_equal"
  | dateType => "date_type"
  | dateParsing => "date_parsing"
  | dateFromDatetimeParsing => "date_from_datetime_parsing"
  | dateFromDatetimeInexact => "date_from_datetime_inexact"
  | decimalType => "decimal_type"
  | decimalParsing => "decimal_parsing"
  | finiteNumber => "finite_number"
  | jsonInvalid => "json_invalid"

/-- A step on the way to a value: into a field, or to an element of a list. -/
inductive Step where
  | field (name : String)
  | index (n : Nat)
  deriving DecidableEq, Repr

/-- Something wrong: what, where, and the value that was found. -/
structure Issue where
  kind : IssueKind
  place : List Step
  input : Json

/-- A valid value, or what is wrong with it. -/
inductive Checked (α : Type) where
  | valid (a : α)
  | invalid (first : Issue) (rest : List Issue)

namespace Checked

variable {α β : Type}

/-- The issues of a checked value. -/
def issues : Checked α → List Issue
  | valid _ => []
  | invalid first rest => first :: rest

/-- Changes a valid value. -/
def map (f : α → β) : Checked α → Checked β
  | valid a => valid (f a)
  | invalid first rest => invalid first rest

/-- Applies a checked function to a checked value, and collects the issues of both. -/
def seq (f : Checked (α → β)) (x : Checked α) : Checked β :=
  match f, x with
  | valid f, valid a => valid (f a)
  | valid _, invalid first rest => invalid first rest
  | invalid first rest, x => invalid first (rest ++ x.issues)

instance : Applicative Checked where
  pure := valid
  map := map
  seq f x := seq f (x ())

/-- A single issue. -/
def issue (kind : IssueKind) (place : List Step) (input : Json) : Checked α :=
  invalid ⟨kind, place, input⟩ []

/-- Goes on from a valid value. -/
def andThen (x : Checked α) (f : α → Checked β) : Checked β :=
  match x with
  | valid a => f a
  | invalid first rest => invalid first rest

/-- A combination is valid exactly if its parts are. -/
theorem seq_eq_valid_iff (f : Checked (α → β)) (x : Checked α) (b : β) :
    seq f x = valid b ↔ ∃ g a, f = valid g ∧ x = valid a ∧ g a = b := by
  cases f <;> cases x <;> simp [seq]

/-- A combination has the issues of its parts. -/
theorem issues_seq (f : Checked (α → β)) (x : Checked α) :
    (seq f x).issues = f.issues ++ x.issues := by
  cases f <;> cases x <;> simp [seq, issues]

end Checked
end Validation
end CardCatalog
