import CardCatalog.Json.Basic
import CardCatalog.Number.Shortest
import CardCatalog.Text.Quoted

/-!
# Writing JSON

Algorithm: values are written without white space. In strings, quotes, backslashes,
control characters and halves of surrogate pairs are escaped, and every other character
stands for itself. Doubles are written by their shortest text. Pieces are collected in
front of the text that follows, so that writing takes time in proportion to the text.
-/

namespace CardCatalog
namespace Json

open Text (Code Wide)

/-- A number of sixteen bits as an escape. -/
def unitEscape (n : Nat) : List Char :=
  '\\' :: 'u' :: Text.padded 16 4 n

/-- One code of a string. -/
def escapedCode : Code → List Char
  | .char c =>
    if c = '"' ∨ c = '\\' then ['\\', c]
    else if c.toNat < 0x20 then unitEscape c.toNat
    else [c]
  | .half n => unitEscape (Code.half n).toNat

/-- A string between its quotes. -/
def writeText (w : Wide) (rest : List Char) : List Char :=
  '"' :: w.codes.foldr (fun c cs => escapedCode c ++ cs) ('"' :: rest)

mutual

/-- Writes a value in front of a text. -/
def write : Json → List Char → List Char
  | .null, rest => "null".toList ++ rest
  | .bool true, rest => "true".toList ++ rest
  | .bool false, rest => "false".toList ++ rest
  | .int n, rest => (toString n).toList ++ rest
  | .double x, rest => x.toText.toList ++ rest
  | .text w, rest => writeText w rest
  | .list items, rest => '[' :: writeItems items (']' :: rest)
  | .object fields, rest => '\x7b' :: writeFields fields ('\x7d' :: rest)

/-- Writes the values of a list, with commas between them. -/
def writeItems : List Json → List Char → List Char
  | [], rest => rest
  | j :: js, rest =>
    match js with
    | [] => write j rest
    | js => write j (',' :: writeItems js rest)

/-- Writes the fields of an object, with commas between them. -/
def writeFields : List (Wide × Json) → List Char → List Char
  | [], rest => rest
  | (name, j) :: fs, rest =>
    match fs with
    | [] => writeText name (':' :: write j rest)
    | fs => writeText name (':' :: write j (',' :: writeFields fs rest))

end

/-- The text of a value. -/
def toText (j : Json) : String :=
  String.ofList (write j [])

end Json
end CardCatalog
