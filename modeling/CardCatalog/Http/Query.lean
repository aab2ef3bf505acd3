import CardCatalog.Json.Reader
import CardCatalog.Text.CommaList
import CardCatalog.Text.Utf8

/-!
# Queries and addresses

A query is a list of fields, each a name and a value in percent encoding, with `&` between
them. A plus sign is a space, a percent sign that no two hexadecimal digits follow stands
for itself, and bytes are UTF-8. Characters beyond ASCII arrive as bytes outside the
percent encoding; each such byte stands for the character of its number. A field without
an equals sign has the empty value. Of fields of one name the last one counts.

Addresses are written the other way round: `quotedAddress` keeps the characters that may
stand in an address and encodes all others.
-/

namespace CardCatalog
namespace Http

section Reading

/-- The bytes of a text in percent encoding. -/
def percentBytes : List Char → List Nat
  | '%' :: a :: b :: cs =>
    match Json.hexValue? a, Json.hexValue? b with
    | some x, some y => (16 * x + y) :: percentBytes cs
    | _, _ => Text.encodeChar '%' ++ percentBytes (a :: b :: cs)
  | c :: cs => Text.encodeChar c ++ percentBytes cs
  | [] => []

/-- Whether a character is an ASCII character. -/
def isAscii (c : Char) : Bool :=
  c.toNat < 0x80

/-- The characters of a run of ASCII characters, or of a run of others. -/
def runChars (run : List Char) : List Char :=
  if run.all isAscii then Text.decodeBytes (percentBytes run)
  else (run.flatMap Text.encodeChar).map Char.ofNat

/-- The text of a name or a value. Percent encoding does not reach from one run of ASCII
characters into the next. -/
def fieldText (cs : List Char) : String :=
  let spaced := cs.map fun c => if c = '+' then ' ' else c
  let runs := spaced.splitBy fun a b => isAscii a == isAscii b
  String.ofList (runs.flatMap runChars)

/-- The name and the value of one field. -/
def queryField (cs : List Char) : String × String :=
  let name := cs.takeWhile (· ≠ '=')
  (fieldText name, fieldText ((cs.drop name.length).drop 1))

/-- The fields of a query, in order. -/
def queryFields (query : String) : List (String × String) :=
  ((Text.pieces '&' query.toList).filter (!·.isEmpty)).map queryField

/-- The value that counts for a name. -/
def lastValue? (fields : List (String × String)) (name : String) : Option String :=
  Json.get? fields.reverse name

end Reading

section Writing

/-- The characters that stand for themselves in an address. -/
def isAddressChar (c : Char) : Bool :=
  ('a' ≤ c && c ≤ 'z') || ('A' ≤ c && c ≤ 'Z') || ('0' ≤ c && c ≤ '9')
    || "_.-~:/%#?=@[]!$&'()*+,;".toList.contains c

/-- One character of an address. -/
def quotedAddressChar (c : Char) : List Char :=
  if isAddressChar c then [c]
  else
    (Text.encodeChar c).flatMap fun b =>
      '%' :: (Text.padded 16 2 b).map Char.toUpper

/-- A text as part of an address. -/
def quotedAddress (s : String) : String :=
  String.ofList (s.toList.flatMap quotedAddressChar)

end Writing

end Http
end CardCatalog
