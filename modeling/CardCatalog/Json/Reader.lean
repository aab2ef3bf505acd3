import CardCatalog.Json.Basic

/-!
# Reading JSON

Algorithm: recursive descent over the codes of a wide text. Every step into a value, an
item or a member spends one unit of fuel. No code costs more than two, so that a text of
`n` codes never needs more than `2 * n + 1`, and the wrapper `Json.read` shows none.

Beyond the standard, the words `NaN`, `Infinity` and `-Infinity` are read as doubles.
Control characters are refused in strings. Two halves of a surrogate pair become one
character if both are escaped. An integer of more than `Number.longestInteger` digits is a
failure of its own, and so are lists and objects that lie too deep in one another.
-/

namespace CardCatalog
namespace Json

open Text (Code Wide)

/-- What holds other values. -/
inductive Container where
  | list
  | object
  deriving DecidableEq, Repr

/-- Why a text is not read as JSON. -/
inductive Unread where
  /-- The text is not JSON. -/
  | malformed
  /-- An integer has too many digits. -/
  | longInteger
  /-- A list or an object lies inside more others than are allowed. -/
  | deepNesting (container : Container)
  deriving DecidableEq, Repr

/-- The white space between the parts of a JSON text. -/
def isGap : Code → Bool
  | .char c => c == ' ' || c == '\t' || c == '\n' || c == '\r'
  | .half _ => false

/-- The text behind its leading white space. -/
def skipGap (cs : List Code) : List Code :=
  cs.dropWhile isGap

section Strings

/-- The value of a hexadecimal digit. -/
def hexValue? (c : Char) : Option Nat :=
  if '0' ≤ c ∧ c ≤ '9' then some (c.toNat - 48)
  else if 'a' ≤ c ∧ c ≤ 'f' then some (c.toNat - 87)
  else if 'A' ≤ c ∧ c ≤ 'F' then some (c.toNat - 55)
  else none

/-- The number of four hexadecimal digits. -/
def hexFour? (a b c d : Code) : Option Nat := do
  let a ← a.char?.bind hexValue?
  let b ← b.char?.bind hexValue?
  let c ← c.char?.bind hexValue?
  let d ← d.char?.bind hexValue?
  pure (((a * 16 + b) * 16 + c) * 16 + d)

/-- The character that a one-letter escape stands for. -/
def shortEscape? : Char → Option Char
  | '"' => some '"'
  | '\\' => some '\\'
  | '/' => some '/'
  | 'b' => some '\x08'
  | 'f' => some '\x0c'
  | 'n' => some '\n'
  | 'r' => some '\r'
  | 't' => some '\t'
  | _ => none

/-- Whether a code may stand in a string as it is. -/
def isPlain : Code → Bool
  | .char c => 0x20 ≤ c.toNat && c != '\\'
  | .half _ => true

/-- The parts of a string up to its closing quote, and what follows it. -/
def stringParts? : List Code → Option (List Text.Part × List Code)
  | [] => none
  | .char '"' :: rest => some ([], rest)
  | .char '\\' :: .char 'u' :: a :: b :: c :: d :: rest => do
    let n ← hexFour? a b c d
    let (parts, rest) ← stringParts? rest
    pure (.unit n :: parts, rest)
  | .char '\\' :: .char e :: rest => do
    let c ← shortEscape? e
    let (parts, rest) ← stringParts? rest
    pure (.code (.char c) :: parts, rest)
  | c :: rest =>
    if isPlain c then do
      let (parts, rest) ← stringParts? rest
      pure (.code c :: parts, rest)
    else none

/-- The text of a string literal behind its opening quote, and what follows it. -/
def stringLiteral? (cs : List Code) : Option (Wide × List Code) :=
  (stringParts? cs).map fun (parts, rest) => (⟨Text.joinParts parts⟩, rest)

end Strings

section Numbers

/-- The value of a digit. -/
def digit? (c : Code) : Option Nat :=
  c.char?.bind Text.asciiDigit?

/-- Digits in front of a text, and what follows them. -/
def digitRun (cs : List Code) : List Nat × List Code :=
  let ds := cs.takeWhile fun c => (digit? c).isSome
  (ds.filterMap digit?, cs.drop ds.length)

/-- The fraction behind a whole number: its digits, none if there is no fraction. -/
def fractionPart (cs : List Code) : Option (List Nat) × List Code :=
  match cs with
  | .char '.' :: rest =>
    match digitRun rest with
    | ([], _) => (none, cs)
    | (ds, rest) => (some ds, rest)
  | _ => (none, cs)

/-- The exponent behind a number, none if there is no exponent. -/
def exponentPart (cs : List Code) : Option Int × List Code :=
  match cs with
  | e :: rest =>
    if e = .char 'e' ∨ e = .char 'E' then
      let (negative, rest) :=
        match rest with
        | .char '-' :: r => (true, r)
        | .char '+' :: r => (false, r)
        | r => (false, r)
      match digitRun rest with
      | ([], _) => (none, cs)
      | (ds, rest) =>
        let n : Int := Number.ofDigits ds
        (some (if negative then -n else n), rest)
    else (none, cs)
  | [] => (none, cs)

/-- An unsigned number in front of a text. -/
def number (negative : Bool) (cs : List Code) : Except Unread (Json × List Code) :=
  let (whole, rest) :=
    match cs with
    | .char '0' :: rest => ([0], rest)
    | cs => digitRun cs
  if whole.isEmpty then .error .malformed
  else
    let (fraction, rest) := fractionPart rest
    let (exponent, rest) := exponentPart rest
    match fraction, exponent with
    | none, none =>
      if whole.length > Number.longestInteger then .error .longInteger
      else
        let n : Int := Number.ofDigits whole
        .ok (.int (if negative then -n else n), rest)
    | fraction, exponent =>
      let ds := fraction.getD []
      let decimal :=
        .finite negative (Number.ofDigits (whole ++ ds)) (exponent.getD 0 - ds.length)
      .ok (.double (.ofDecimal decimal), rest)

end Numbers

/-- The words of JSON and their values. -/
def words : List (String × Json) :=
  [("null", .null), ("true", .bool true), ("false", .bool false), ("NaN", .double .nan),
   ("Infinity", .double (.infinite false)), ("-Infinity", .double (.infinite true))]

/-- A value that is neither a list nor an object. -/
def scalar (cs : List Code) : Except Unread (Json × List Code) :=
  match words.find? fun w => Wide.startsWith ⟨cs⟩ w.1 with
  | some w => .ok (w.2, cs.drop w.1.length)
  | none =>
    match cs with
    | .char '"' :: rest =>
      match stringLiteral? rest with
      | some (w, rest) => .ok (.text w, rest)
      | none => .error .malformed
    | .char '-' :: rest => number true rest
    | cs => number false cs

/-- One level less of those that are left, if a container finds one left. -/
def descend (container : Container) : Nat → Except Unread Nat
  | 0 => .error (.deepNesting container)
  | levels + 1 => .ok levels

mutual

/-- A value in front of a text, and what follows it. -/
def value : Nat → Nat → List Code → Except Unread (Json × List Code)
  | 0, _, _ => .error .malformed
  | fuel + 1, levels, cs =>
    match cs with
    | .char '[' :: rest => do
      let levels ← descend .list levels
      match skipGap rest with
      | .char ']' :: rest => pure (.list [], rest)
      | rest =>
        let (items, rest) ← items fuel levels rest
        pure (.list items, rest)
    | .char '\x7b' :: rest => do
      let levels ← descend .object levels
      match skipGap rest with
      | .char '\x7d' :: rest => pure (.object [], rest)
      | rest =>
        let (fields, rest) ← members fuel levels [] rest
        pure (.object fields, rest)
    | cs => scalar cs

/-- The values of a list, up to its closing bracket. -/
def items : Nat → Nat → List Code → Except Unread (List Json × List Code)
  | 0, _, _ => .error .malformed
  | fuel + 1, levels, cs => do
    let (j, rest) ← value fuel levels cs
    match skipGap rest with
    | .char ']' :: rest => pure ([j], rest)
    | .char ',' :: rest =>
      let (js, rest) ← items fuel levels (skipGap rest)
      pure (j :: js, rest)
    | _ => .error .malformed

/-- The fields of an object, added to those already read, up to its closing brace. -/
def members : Nat → Nat → List (Wide × Json) → List Code →
    Except Unread (List (Wide × Json) × List Code)
  | 0, _, _, _ => .error .malformed
  | fuel + 1, levels, fields, cs =>
    match cs with
    | .char '"' :: rest =>
      match stringLiteral? rest with
      | none => .error .malformed
      | some (name, rest) =>
        match skipGap rest with
        | .char ':' :: rest => do
          let (j, rest) ← value fuel levels (skipGap rest)
          let fields := put fields name j
          match skipGap rest with
          | .char '\x7d' :: rest => pure (fields, rest)
          | .char ',' :: rest => members fuel levels fields (skipGap rest)
          | _ => .error .malformed
        | _ => .error .malformed
    | _ => .error .malformed

end

/-- How many lists and objects of a payload may lie in one another. It stands for what the
service has left of a stack of a thousand calls when it reads a payload. -/
def deepestNesting : Nat := 960

/-- The JSON value that a whole text spells, in which no more than `deepest` lists and
objects lie in one another. -/
def read (w : Wide) (deepest : Nat := deepestNesting) : Except Unread Json := do
  let (j, rest) ← value (2 * w.codes.length + 1) deepest (skipGap w.codes)
  if (skipGap rest).isEmpty then pure j else .error .malformed

end Json
end CardCatalog
