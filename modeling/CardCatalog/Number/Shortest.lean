import CardCatalog.Number.Binary64

/-!
# The shortest text of a double

Algorithm: among the decimals that lie closer to a double than to any other, the one with
the fewest digits is written, and of several with equally few digits the one nearest to
the double. For one digit, two digits and so on, the two neighbours of the double on that
decimal grid are tried; the first grid with a hit wins.

Numbers from 0.0001 up to 10 to the 16th are written positionally, with `.0` after an
integer; all others with an exponent of at least two digits and a sign.
-/

namespace CardCatalog
namespace Number
namespace Binary64

/-- The interval of reals that round to a double, in quarters of its last place: its lower
end, the double itself, and its upper end. -/
def roundingInterval (significand : Nat) (exponent : Int) : Nat × Nat × Nat :=
  let m := 4 * significand
  let low := if significand = Nat.pow 2 52 ∧ leastExponent < exponent then m - 1 else m - 2
  (low, m, m + 2)

/-- The number of decimal digits in front of the point, zero or negative for numbers
below one tenth. -/
def decimalPlace (significand : Nat) (exponent : Int) : Int :=
  let (num, den) := ratio significand exponent
  ((Nat.toDigits 10 (num * Nat.pow 10 400 / den)).length : Int) - 400

/-- The candidate with `count` digits: a natural number and its power of ten, if one of
the two neighbours on the grid rounds to the double. -/
def onGrid? (significand : Nat) (exponent : Int) (count : Nat) : Option (Nat × Int) :=
  let k := decimalPlace significand exponent - count
  let (low, mid, high) := roundingInterval significand exponent
  let quarter := exponent - 2
  let scale (n : Nat) : Nat := n * Nat.pow 2 quarter.toNat * Nat.pow 10 (-k).toNat
  let unit := Nat.pow 10 k.toNat * Nat.pow 2 (-quarter).toNat
  let inside (c : Nat) : Bool :=
    if significand % 2 = 0 then scale low ≤ c * unit && c * unit ≤ scale high
    else scale low < c * unit && c * unit < scale high
  let below := scale mid / unit
  let above := below + 1
  let toBelow := scale mid - below * unit
  let toAbove := above * unit - scale mid
  let preferBelow := toBelow < toAbove || (toBelow == toAbove && below % 2 == 0)
  if inside below && (!inside above || preferBelow) then some (below, k)
  else if inside above then some (above, k)
  else none

/-- The shortest digits of a positive double, and their power of ten. -/
def shortest (significand : Nat) (exponent : Int) : Nat × Int :=
  let found := (List.range 17).findSome? fun i => onGrid? significand exponent (i + 1)
  found.getD (significand, 0)

/-- The digits of a number without its trailing zeros, and the place of the point counted
from the first digit. -/
def significantDigits (n : Nat) (power : Int) : List Char × Int :=
  let ds := Nat.toDigits 10 n
  ((ds.reverse.dropWhile (· = '0')).reverse, ds.length + power)

/-- Positional or exponential form of digits `ds` with the point after `place` of them. -/
def layout (ds : List Char) (place : Int) : List Char :=
  if -4 < place ∧ place ≤ 16 then
    if place ≤ 0 then
      '0' :: '.' :: List.replicate (-place).toNat '0' ++ ds
    else
      let whole := ds.take place.toNat
      let fraction := ds.drop place.toNat
      whole ++ List.replicate (place.toNat - ds.length) '0' ++ '.' ::
        (if fraction.isEmpty then ['0'] else fraction)
  else
    let e := place - 1
    let es := Nat.toDigits 10 e.natAbs
    let mantissa :=
      match ds with
      | [] => []
      | [d] => [d]
      | d :: rest => d :: '.' :: rest
    mantissa ++ 'e' :: (if e < 0 then '-' else '+')
      :: (List.replicate (2 - es.length) '0' ++ es)

/-- The shortest text that reads back as the same double. -/
def toText : Binary64 → String
  | .nan => "nan"
  | .infinite negative => if negative then "-inf" else "inf"
  | .finite negative significand exponent =>
    let body :=
      if significand = 0 then ['0', '.', '0']
      else
        let (n, power) := shortest significand exponent
        let (ds, place) := significantDigits n power
        layout ds place
    String.ofList (if negative then '-' :: body else body)

end Binary64
end Number
end CardCatalog
