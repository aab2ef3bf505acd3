import CardCatalog.Text.Utf8
import CardCatalog.Text.Wide

/-!
# Encodings of Unicode

Input: bytes whose encoding is not told.
A text that starts with two ASCII characters gives its encoding away by the places of the
zeros among its first bytes: they tell how wide a code is, and which end of it comes
first. Everything else is UTF-8, where a byte order mark may stand in front.

In the wider encodings halves of surrogate pairs may stand alone.
-/

namespace CardCatalog
namespace Text

/-- Which byte of a number comes first. -/
inductive ByteOrder where
  | bigEnd
  | littleEnd
  deriving DecidableEq, Repr

/-- An encoding of Unicode. -/
inductive Encoding where
  | utf8
  | utf16 (order : ByteOrder)
  | utf32 (order : ByteOrder)
  deriving DecidableEq, Repr

/-- The encoding that the first bytes of a text suggest. -/
def Encoding.guess : List Nat → Encoding
  | [a, b] => if a = 0 then .utf16 .bigEnd else if b = 0 then .utf16 .littleEnd else .utf8
  | a :: b :: c :: d :: _ =>
    if a = 0 then if b = 0 then .utf32 .bigEnd else .utf16 .bigEnd
    else if b = 0 then if c = 0 ∧ d = 0 then .utf32 .littleEnd else .utf16 .littleEnd
    else .utf8
  | _ => .utf8

/-- The number that two numbers make, of which the second one lies below `base`. -/
def ByteOrder.pair (order : ByteOrder) (base first second : Nat) : Nat :=
  match order with
  | bigEnd => first * base + second
  | littleEnd => second * base + first

/-- Numbers taken in pairs, if none is left over. -/
def pairs? (f : Nat → Nat → Nat) : List Nat → Option (List Nat)
  | [] => some []
  | [_] => none
  | a :: b :: rest => (pairs? f rest).map (f a b :: ·)

/-- The wide text that bytes encode, if they encode any. -/
def Encoding.decode? (e : Encoding) (bytes : List Nat) : Option Wide :=
  match e with
  | utf8 => some ⟨(decodeBytes bytes).map .char⟩
  | utf16 order => do
    let units ← pairs? (order.pair 0x100) bytes
    some ⟨joinParts (units.map .unit)⟩
  | utf32 order => do
    let units ← pairs? (order.pair 0x100) bytes
    let numbers ← pairs? (order.pair 0x10000) units
    let codes ← numbers.mapM Code.ofNat?
    some ⟨codes⟩

/-- What a text is read as that was sent in UTF-8. -/
def received? (s : String) : Option Wide :=
  match s.toList with
  | '\ufeff' :: cs => some ⟨cs.map .char⟩
  | cs =>
    let bytes := cs.flatMap encodeChar
    (Encoding.guess bytes).decode? bytes

end Text
end CardCatalog
