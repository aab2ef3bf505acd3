import CardCatalog.Number.Binary64
import CardCatalog.Text.Wide

/-!
# JSON values

Input values of the catalog are JSON values in which integers and doubles are kept apart
and integers have any length. Strings and names are wide text. An object is the list of
its fields in order of first appearance; a repeated name keeps its place and takes the
later value.

Result: the value found under a name is the last one put there (`get?_put`).
-/

namespace CardCatalog

open Text (Wide)

/-- A JSON value. -/
inductive Json where
  | null
  | bool (b : Bool)
  | int (n : Int)
  | double (x : Number.Binary64)
  | text (w : Wide)
  | list (items : List Json)
  | object (fields : List (Wide × Json))
  deriving Inhabited

namespace Json

section Fields

variable {κ α : Type} [DecidableEq κ]

/-- The value under a name, in a list of fields. -/
def get? (fields : List (κ × α)) (name : κ) : Option α :=
  (fields.find? fun f => f.1 = name).map (·.2)

/-- Puts a value under a name: in place of the old one, or at the end. -/
def put (fields : List (κ × α)) (name : κ) (value : α) : List (κ × α) :=
  match fields with
  | [] => [(name, value)]
  | f :: rest =>
    if f.1 = name then (name, value) :: rest
    else f :: put rest name value

/-- What was put under a name is found there, and other names are not touched. -/
theorem get?_put (fields : List (κ × α)) (name other : κ) (value : α) :
    get? (put fields name value) other
      = if other = name then some value else get? fields other := by
  induction fields with
  | nil =>
    by_cases h : name = other
    · simp [put, get?, h]
    · simp [put, get?, h, Ne.symm h]
  | cons f rest ih =>
    by_cases hf : f.1 = name
    · by_cases h : name = other
      · simp [put, get?, hf, h]
      · simp [put, get?, hf, h, Ne.symm h]
    · by_cases h : f.1 = other
      · have hn : ¬ other = name := fun e => hf (h.trans e)
        simp [put, get?, h, hn]
      · have : get? (f :: put rest name value) other = get? (put rest name value) other := by
          simp [get?, h]
        rw [show put (f :: rest) name value = f :: put rest name value by simp [put, hf],
          this, ih]
        simp [get?, h]

end Fields

/-- The value under a name; only objects have any. -/
def field? (j : Json) (name : String) : Option Json :=
  match j with
  | .object fields => get? fields (.ofText name)
  | _ => none

/-- Whether the value is null, zero, empty or false. -/
def isEmptyValue : Json → Bool
  | .null => true
  | .bool b => !b
  | .int n => n == 0
  | .double (.finite _ significand _) => significand == 0
  | .double _ => false
  | .text w => w.codes.isEmpty
  | .list items => items.isEmpty
  | .object fields => fields.isEmpty

end Json
end CardCatalog
