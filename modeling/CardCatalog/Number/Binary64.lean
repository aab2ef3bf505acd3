import CardCatalog.Number.Decimal
import CardCatalog.Number.Rounding

/-!
# Double-precision numbers

A double is a sign, a significand below `2 ^ 53` and a power of two not below
`2 ^ -1074`, an infinity, or no number. `ofDecimal` takes a decimal to the nearest
double, halfway cases to the even significand; decimals beyond the largest double become
infinite. All of it is exact arithmetic on natural numbers.
-/

namespace CardCatalog
namespace Number

/-- A double: `significand * 2 ^ exponent` with a sign, an infinity, or no number. -/
inductive Binary64 where
  | finite (negative : Bool) (significand : Nat) (exponent : Int)
  | infinite (negative : Bool)
  | nan
  deriving DecidableEq, Repr

namespace Binary64

/-- The smallest exponent of a double. -/
def leastExponent : Int := -1074

/-- The exponent that puts the quotient `num / den` between `2 ^ 52` and `2 ^ 53`, or the
smallest exponent for quotients that lie below. -/
def exponentFor (num den : Nat) : Int :=
  let e := max leastExponent ((num.log2 : Int) - den.log2 - 53)
  if num * Nat.pow 2 (-e).toNat / (den * Nat.pow 2 e.toNat) < Nat.pow 2 53 then e else e + 1

/-- The double nearest to the quotient `num / den`, with the given sign. -/
def nearest (negative : Bool) (num den : Nat) : Binary64 :=
  if num = 0 then .finite negative 0 leastExponent
  else
    let e := exponentFor num den
    let m := roundHalfEven (num * Nat.pow 2 (-e).toNat) (den * Nat.pow 2 e.toNat)
    let (m, e) := if m = Nat.pow 2 53 then (Nat.pow 2 52, e + 1) else (m, e)
    if e > 971 then .infinite negative else .finite negative m e

/-- The double nearest to a decimal. A decimal whose magnitude is certainly beyond the
doubles, or certainly below half the least of them, is decided by its digit count. -/
def ofDecimal : Decimal → Binary64
  | .nan _ => .nan
  | .infinite negative => .infinite negative
  | .finite negative coefficient exponent =>
    let top := exponent + (Nat.toDigits 10 coefficient).length
    if coefficient = 0 ∨ top < -330 then .finite negative 0 leastExponent
    else if top > 330 then .infinite negative
    else
      nearest negative (coefficient * Nat.pow 10 exponent.toNat) (Nat.pow 10 (-exponent).toNat)

/-- The magnitude of a finite double as a quotient of natural numbers. -/
def ratio (significand : Nat) (exponent : Int) : Nat × Nat :=
  (significand * Nat.pow 2 exponent.toNat, Nat.pow 2 (-exponent).toNat)

/-- A finite double as a quotient. -/
def quotient? : Binary64 → Option (Int × Nat)
  | .finite negative significand exponent =>
    let (num, den) := ratio significand exponent
    some (if negative then -(num : Int) else num, den)
  | _ => none

/-- The double nearest to the quotient `num / den`. -/
def ofQuotient (num : Int) (den : Nat) : Binary64 :=
  nearest (num < 0) num.natAbs den

/-- The integer that a double is, if it is one. -/
def toInt? (x : Binary64) : Option Int :=
  x.quotient?.bind fun (num, den) => if num % den = 0 then some (num / den) else none

/-- The decimal of the same value. -/
def toDecimal : Binary64 → Decimal
  | .nan => .nan false
  | .infinite negative => .infinite negative
  | .finite negative significand exponent =>
    .finite negative (significand * Nat.pow 2 exponent.toNat * Nat.pow 5 (-exponent).toNat)
      (min exponent 0)

end Binary64
end Number
end CardCatalog
