import CardCatalog.Number.Binary64

/-!
# Link sizes

A size is given as a decimal, kept as the nearest double, and read back in hundredths of
the double's exact value, halves going to the even neighbour. A double that is an integer
has no sign of zero; one that rounds to no hundredths keeps its sign. Decimals beyond the
doubles are read back as infinite, and what is no number is refused.
-/

namespace CardCatalog

open Number

/-- A size as it is read back. -/
inductive Size where
  | hundredths (negative : Bool) (n : Nat)
  | infinite (negative : Bool)
  deriving DecidableEq, Repr

namespace Size

/-- The size of a link that was given none: minus one. -/
def unknown : Size := .hundredths true 100

/-- What is read back of a stored double. -/
def ofBinary64? : Binary64 → Option Size
  | .nan => none
  | .infinite negative => some (.infinite negative)
  | .finite negative significand exponent =>
    let (num, den) := Binary64.ratio significand exponent
    let n := roundHalfEven (num * 100) den
    some (.hundredths (negative && num != 0) n)

/-- What is read back of a stored decimal. -/
def ofDecimal? (d : Decimal) : Option Size :=
  ofBinary64? (Binary64.ofDecimal d)

/-- The decimal that a size reads as. -/
def toDecimal : Size → Decimal
  | .hundredths negative n => .finite negative n (-2)
  | .infinite negative => .infinite negative

/-- The text of a size, with two places. -/
def toText : Size → String
  | .infinite false => "Infinity"
  | .infinite true => "-Infinity"
  | .hundredths negative n =>
    (if negative then "-" else "") ++ toString (n / 100) ++ "."
      ++ String.ofList (Text.padded 10 2 (n % 100))

/-- Whether a size is a number that can be answered. -/
def isFinite : Size → Bool
  | .hundredths .. => true
  | .infinite _ => false

end Size

end CardCatalog
