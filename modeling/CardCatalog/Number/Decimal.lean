import CardCatalog.Number.Integer

/-!
# Decimal numbers

Input: text in decimal or scientific form.
A decimal is a sign, a natural number and a power of ten, an infinity, or no number at
all, which may forbid to be taken for one. Its text may have blank characters around it, underscores anywhere, digits of any
script, a fraction and an exponent; `inf`, `infinity`, `nan` and `snan` are read in any
case. Exponents that reach beyond eighteen digits are refused.
-/

namespace CardCatalog
namespace Number

/-- A decimal number as written: `coefficient * 10 ^ exponent` with a sign. -/
inductive Decimal where
  | finite (negative : Bool) (coefficient : Nat) (exponent : Int)
  | infinite (negative : Bool)
  | nan (signaling : Bool)
  deriving DecidableEq, Repr

namespace Decimal

/-- The decimal of an integer. -/
def ofInt (n : Int) : Decimal :=
  .finite (n < 0) n.natAbs 0

/-- The leading digits of a text with their values, and what follows them. -/
def leadingDigits : List Char → List Nat × List Char
  | [] => ([], [])
  | c :: cs =>
    match Text.digitValue? c with
    | some d =>
      let (ds, rest) := leadingDigits cs
      (d :: ds, rest)
    | none => ([], c :: cs)

/-- The exponent part: nothing, or `e` with a signed integer up to the end; `value?` tells
the values of its digits. -/
def exponentPart? (value? : Char → Option Nat) : List Char → Option Int
  | [] => some 0
  | e :: cs =>
    if e = 'e' ∨ e = 'E' then
      let (negative, cs) :=
        match cs with
        | '-' :: r => (true, r)
        | '+' :: r => (false, r)
        | r => (false, r)
      match cs.mapM value? with
      | some (d :: ds) =>
        let n : Int := ofDigits (d :: ds)
        some (if negative then -n else n)
      | _ => none
    else none

/-- The powers of ten that a written decimal may reach. -/
def Writable (coefficient : Nat) (exponent : Int) : Prop :=
  exponent + (Nat.toDigits 10 coefficient).length - 1 ≤ 999999999999999999
    ∧ -1999999999999999997 ≤ exponent

instance (coefficient : Nat) (exponent : Int) : Decidable (Writable coefficient exponent) :=
  inferInstanceAs (Decidable (_ ∧ _))

/-- A number without its sign: digits, a fraction and an exponent. -/
def magnitude? (negative : Bool) (cs : List Char) : Option Decimal :=
  let (whole, rest) := leadingDigits cs
  let (fraction, rest) :=
    match rest with
    | '.' :: r => leadingDigits r
    | r => ([], r)
  if whole.isEmpty && fraction.isEmpty then none
  else
    match exponentPart? Text.digitValue? rest with
    | none => none
    | some e =>
      let coefficient := ofDigits (whole ++ fraction)
      let exponent := e - fraction.length
      if Writable coefficient exponent then some (.finite negative coefficient exponent)
      else none

/-- A text without its sign: a number, an infinity, or no number. -/
def unsigned? (negative : Bool) (cs : List Char) : Option Decimal :=
  let small := cs.map Char.toLower
  if small = "inf".toList ∨ small = "infinity".toList then some (.infinite negative)
  else
    let payload :=
      if small.take 3 = "nan".toList then some (false, cs.drop 3)
      else if small.take 4 = "snan".toList then some (true, cs.drop 4)
      else none
    match payload with
    | some (signaling, r) =>
      if (leadingDigits r).2.isEmpty then some (.nan signaling) else none
    | none => magnitude? negative cs

/-- The decimal that a text spells. -/
def ofText? (s : String) : Option Decimal :=
  match (Text.trimBy Text.isBlank s.toList).filter (· ≠ '_') with
  | '-' :: cs => unsigned? true cs
  | '+' :: cs => unsigned? false cs
  | cs => unsigned? false cs

end Decimal
end Number
end CardCatalog
