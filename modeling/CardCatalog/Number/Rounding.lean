/-!
# Rounding a quotient

A quotient of natural numbers goes to the nearest integer, and a quotient that stands
halfway goes to the even one of its neighbours.

Results: rounding stays within half a unit (`roundHalfEven_bounds`), and an integer stays
where it is (`roundHalfEven_mul`).
-/

namespace CardCatalog
namespace Number

/-- The integer nearest to `num / den`; halfway cases go to the even neighbour. -/
def roundHalfEven (num den : Nat) : Nat :=
  let q := num / den
  let r := num % den
  if 2 * r < den then q
  else if den < 2 * r then q + 1
  else if q % 2 = 0 then q
  else q + 1

/-- A quotient that is an integer is not moved. -/
theorem roundHalfEven_mul {den : Nat} (h : 0 < den) (q : Nat) :
    roundHalfEven (q * den) den = q := by
  simp [roundHalfEven, Nat.mul_div_cancel _ h, h]

/-- Rounding stays within half a unit, in the doubled scale of the divisor. -/
theorem roundHalfEven_bounds {den : Nat} (h : 0 < den) (num : Nat) :
    2 * (roundHalfEven num den * den) ≤ 2 * num + den
      ∧ 2 * num ≤ 2 * (roundHalfEven num den * den) + den := by
  have hd := Nat.div_add_mod num den
  have hm := Nat.mod_lt num h
  have he : num / den * den = den * (num / den) := Nat.mul_comm _ _
  have hs : (num / den + 1) * den = den * (num / den) + den := by
    rw [Nat.add_mul, Nat.one_mul, Nat.mul_comm]
  unfold roundHalfEven
  dsimp only
  split
  · omega
  · split
    · omega
    · split <;> omega

end Number
end CardCatalog
