import CardCatalog.Number.Binary64
import Mathlib.Algebra.Order.Field.Power
import Mathlib.Data.Int.Log
import Mathlib.Data.Rat.Floor
import Mathlib.Tactic.FieldSimp
import Mathlib.Tactic.Linarith
import Mathlib.Tactic.NormNum
import Mathlib.Tactic.Positivity

/-!
# Nearest doubles

The arithmetic of doubles is done on quotients of natural numbers, and what it comes to is told by
the quotients as numbers.  Around a number the doubles are the multiples of one power of two, its
last place, and the nearest one is found by rounding the number in units of its last place.  That
the units are finer below the number than above it does no harm: where they change, there is a
double.

Results: no double lies nearer to a number than `nearestDouble` (`abs_sub_nearestDouble_le`), which
grows with the number (`nearestDouble_mono`) and differs from it by half a unit at most
(`abs_sub_nearestDouble_le_half`); and a decimal is taken to it, or beyond the doubles
(`Binary64.exists_ofDecimal_eq`).
-/

namespace CardCatalog
namespace Number

section HalfEven

/-- Whether a natural number is nearest to a number, and the even one if two are. -/
structure IsHalfEven (q : ℚ) (n : ℕ) : Prop where
  above : (n : ℚ) - 1 / 2 ≤ q
  below : q ≤ n + 1 / 2
  even_of_below : q = n - 1 / 2 → Even n
  even_of_above : q = n + 1 / 2 → Even n

variable {q r : ℚ} {n m : ℕ}

theorem IsHalfEven.le
    (hn : IsHalfEven q n) (hm : IsHalfEven r m)
    (h : q ≤ r) :
    n ≤ m := by
  by_contra hlt
  have hstep : (m : ℚ) + 1 ≤ n := by
    exact_mod_cast Nat.lt_of_not_le hlt
  have hq := hn.above
  have hr := hm.below
  have heq : (n : ℚ) = m + 1 := by linarith
  have hn_even := hn.even_of_below (by linarith)
  have hm_even := hm.even_of_above (by linarith)
  have hsucc : n = m + 1 := by exact_mod_cast heq
  rw [hsucc, Nat.even_add_one] at hn_even
  exact hn_even hm_even

theorem IsHalfEven.eq
    (hn : IsHalfEven q n) (hm : IsHalfEven q m) :
    n = m :=
  le_antisymm (hn.le hm le_rfl) (hm.le hn le_rfl)

/-- No integer is nearer. -/
theorem IsHalfEven.abs_sub_le
    (h : IsHalfEven q n) (k : ℕ) :
    |q - n| ≤ |q - k| := by
  have habove := h.above
  have hbelow := h.below
  have hnear : |q - n| ≤ 1 / 2 := abs_le.2 ⟨by linarith, by linarith⟩
  rcases lt_trichotomy k n with hlt | rfl | hlt
  · have hstep : (k : ℚ) + 1 ≤ n := by exact_mod_cast hlt
    exact hnear.trans (le_abs.2 (.inl (by linarith)))
  · exact le_rfl
  · have hstep : (n : ℚ) + 1 ≤ k := by exact_mod_cast hlt
    exact hnear.trans (le_abs.2 (.inr (by linarith)))

/-- Rounding a quotient finds the integer nearest to it. -/
theorem isHalfEven_roundHalfEven
    (num : ℕ) {den : ℕ}
    (positive : 0 < den) :
    IsHalfEven (num / den) (roundHalfEven num den) := by
  have hden : (0 : ℚ) < den := by exact_mod_cast positive
  have hsplit : (num : ℚ) = den * (num / den : ℕ) + (num % den : ℕ) := by
    exact_mod_cast (Nat.div_add_mod num den).symm
  have hquotient : (num / den : ℚ) = (num / den : ℕ) + (num % den : ℕ) / den := by
    rw [hsplit]
    field_simp
  have hnonneg : (0 : ℚ) ≤ (num % den : ℕ) / den := by positivity
  have hless : ((num % den : ℕ) / den : ℚ) < 1 :=
    (div_lt_one hden).2 (by exact_mod_cast Nat.mod_lt num positive)
  have hlow : 2 * (num % den) < den ↔ ((num % den : ℕ) / den : ℚ) < 1 / 2 := by
    rw [div_lt_iff₀ hden, ← Nat.cast_lt (α := ℚ)]
    push_cast
    constructor <;> intro h <;> linarith
  have hhigh : den < 2 * (num % den) ↔ 1 / 2 < ((num % den : ℕ) / den : ℚ) := by
    rw [lt_div_iff₀ hden, ← Nat.cast_lt (α := ℚ)]
    push_cast
    constructor <;> intro h <;> linarith
  have hsucc : ((num / den + 1 : ℕ) : ℚ) = (num / den : ℕ) + 1 := Nat.cast_succ _
  rw [hquotient]
  generalize ((num % den : ℕ) / den : ℚ) = part at *
  unfold roundHalfEven
  dsimp only
  split
  · rename_i h
    have hpart := hlow.1 h
    exact ⟨by linarith, by linarith, fun h => by linarith, fun h => by linarith⟩
  · rename_i h
    have hpart := (not_congr hlow).1 h
    split
    · rename_i h'
      have hpart' := hhigh.1 h'
      exact ⟨by linarith, by linarith, fun h => by linarith, fun h => by linarith⟩
    · rename_i h'
      have hpart' := (not_congr hhigh).1 h'
      split
      · rename_i heven
        have := Nat.even_iff.2 heven
        exact ⟨by linarith, by linarith, fun _ => this, fun _ => this⟩
      · rename_i hodd
        have := Nat.even_add_one.2 (Nat.even_iff.not.2 hodd)
        exact ⟨by linarith, by linarith, fun _ => this, fun _ => this⟩

/-- The natural number nearest to a number; of two that are, the even one. -/
def halfEven (q : ℚ) : ℕ :=
  roundHalfEven q.num.toNat q.den

theorem isHalfEven_halfEven (h : 0 ≤ q) : IsHalfEven q (halfEven q) := by
  have hnum : ((q.num.toNat : ℕ) : ℚ) = q.num := by
    exact_mod_cast Int.toNat_of_nonneg (Rat.num_nonneg.2 h)
  have hspec := isHalfEven_roundHalfEven q.num.toNat q.den_pos
  rwa [hnum, Rat.num_div_den] at hspec

theorem IsHalfEven.eq_halfEven
    (h : IsHalfEven q n) (hq : 0 ≤ q) :
    halfEven q = n :=
  (isHalfEven_halfEven hq).eq h

/-- What a quotient is rounded to is told by the quotient. -/
theorem roundHalfEven_eq
    (num : ℕ) {den : ℕ}
    (positive : 0 < den) :
    roundHalfEven num den = halfEven (num / den) :=
  ((isHalfEven_roundHalfEven num positive).eq_halfEven (by positivity)).symm

theorem halfEven_mono (hq : 0 ≤ q) (h : q ≤ r) : halfEven q ≤ halfEven r :=
  (isHalfEven_halfEven hq).le (isHalfEven_halfEven (hq.trans h)) h

/-- A number that is nearer to an integer than half a unit goes there. -/
theorem halfEven_eq_of_abs_lt
    (hq : 0 ≤ q) (h : |q - n| < 1 / 2) :
    halfEven q = n := by
  obtain ⟨hlow, hhigh⟩ := abs_lt.1 h
  have hspec : IsHalfEven q n :=
    ⟨by linarith, by linarith, fun h => by linarith, fun h => by linarith⟩
  exact hspec.eq_halfEven hq

@[simp] theorem halfEven_natCast (n : ℕ) : halfEven n = n :=
  halfEven_eq_of_abs_lt n.cast_nonneg (by simp)

@[simp] theorem halfEven_zero : halfEven 0 = 0 := by
  exact_mod_cast halfEven_natCast 0

end HalfEven

section LastPlace

/-- The exponent of the last place of the doubles around a number. -/
def lastPlace (q : ℚ) : ℤ :=
  max Binary64.leastExponent (Int.log 2 q - 52)

/-- A power of two with an integer exponent is a quotient of two with natural ones. -/
theorem two_zpow_eq (e : ℤ) : (2 : ℚ) ^ e = 2 ^ e.toNat / 2 ^ (-e).toNat := by
  rcases Int.eq_nat_or_neg e with ⟨n, rfl | rfl⟩
  · simp
  · simp

/-- A quotient in units of a power of two. -/
theorem scaled_eq (num den : ℕ) (e : ℤ) :
    ((num * Nat.pow 2 (-e).toNat : ℕ) : ℚ) / (den * Nat.pow 2 e.toNat : ℕ)
      = num / den / 2 ^ e := by
  rw [two_zpow_eq]
  push_cast [Nat.pow_eq]
  field_simp

variable {q : ℚ}

theorem lt_two_zpow_iff (h : 0 < q) (e : ℤ) : q < 2 ^ e ↔ Int.log 2 q < e :=
  Int.lt_zpow_iff_log_lt (by decide) h

theorem two_zpow_le_iff (h : 0 < q) (e : ℤ) : 2 ^ e ≤ q ↔ e ≤ Int.log 2 q :=
  Int.zpow_le_iff_le_log (by decide) h

/-- A number has at most fifty-three binary digits in front of its last place. -/
theorem div_lastPlace_lt (h : 0 < q) : q / 2 ^ lastPlace q < 2 ^ 53 := by
  rw [div_lt_iff₀ (by positivity), ← zpow_natCast, ← zpow_add₀ two_ne_zero, lt_two_zpow_iff h]
  unfold lastPlace
  omega

/-- It has fifty-three, unless its last place is that of the smallest doubles. -/
theorem le_div_lastPlace
    (h : 0 < q) (large : Binary64.leastExponent < lastPlace q) :
    2 ^ 52 ≤ q / 2 ^ lastPlace q := by
  rw [le_div_iff₀ (by positivity), ← zpow_natCast, ← zpow_add₀ two_ne_zero, two_zpow_le_iff h]
  unfold lastPlace at *
  omega

/-- The exponent that is found for a quotient is that of its last place. -/
theorem exponentFor_eq
    {num den : ℕ}
    (hnum : 0 < num) (hden : 0 < den) :
    Binary64.exponentFor num den = lastPlace (num / den) := by
  have hq : (0 : ℚ) < num / den := by positivity
  have hnum_low : (2 : ℚ) ^ (num.log2 : ℤ) ≤ num := by
    exact_mod_cast Nat.log2_self_le hnum.ne'
  have hnum_high : (num : ℚ) < 2 ^ (num.log2 + 1 : ℤ) := by
    exact_mod_cast Nat.lt_log2_self
  have hden_low : (2 : ℚ) ^ (den.log2 : ℤ) ≤ den := by
    exact_mod_cast Nat.log2_self_le hden.ne'
  have hden_high : (den : ℚ) < 2 ^ (den.log2 + 1 : ℤ) := by
    exact_mod_cast Nat.lt_log2_self
  have hlow : (num.log2 : ℤ) - den.log2 - 1 ≤ Int.log 2 (num / den : ℚ) := by
    rw [← two_zpow_le_iff hq, le_div_iff₀ (by positivity)]
    calc (2 : ℚ) ^ ((num.log2 : ℤ) - den.log2 - 1) * den
        ≤ 2 ^ ((num.log2 : ℤ) - den.log2 - 1) * 2 ^ (den.log2 + 1 : ℤ) := by gcongr
      _ = 2 ^ (num.log2 : ℤ) := by
          rw [← zpow_add₀ two_ne_zero]
          congr 1
          omega
      _ ≤ num := hnum_low
  have hhigh : Int.log 2 (num / den : ℚ) < (num.log2 : ℤ) + 1 - den.log2 := by
    rw [← lt_two_zpow_iff hq, div_lt_iff₀ (by positivity)]
    calc (num : ℚ) < 2 ^ (num.log2 + 1 : ℤ) := hnum_high
      _ = 2 ^ ((num.log2 : ℤ) + 1 - den.log2) * 2 ^ (den.log2 : ℤ) := by
          rw [← zpow_add₀ two_ne_zero]
          congr 1
          omega
      _ ≤ 2 ^ ((num.log2 : ℤ) + 1 - den.log2) * den := by gcongr
  have hcut (e : ℤ) :
      num * Nat.pow 2 (-e).toNat / (den * Nat.pow 2 e.toNat) < Nat.pow 2 53 ↔
        Int.log 2 (num / den : ℚ) < e + 53 := by
    have hunit : 0 < den * Nat.pow 2 e.toNat := Nat.mul_pos hden (Nat.two_pow_pos _)
    have hunit' : (0 : ℚ) < (den * Nat.pow 2 e.toNat : ℕ) := by exact_mod_cast hunit
    rw [Nat.div_lt_iff_lt_mul hunit, ← lt_two_zpow_iff hq, add_comm e, zpow_add₀ two_ne_zero,
      ← div_lt_iff₀ (by positivity), ← scaled_eq num den e, div_lt_iff₀ hunit']
    norm_cast
  unfold Binary64.exponentFor lastPlace
  simp only [hcut]
  split <;> omega

end LastPlace

section Nearest

/-- The doubles that are not negative, with exponents that have no end. -/
def IsDouble (x : ℚ) : Prop :=
  ∃ (m : ℕ) (e : ℤ), m < 2 ^ 53 ∧ Binary64.leastExponent ≤ e ∧ x = m * 2 ^ e

/-- The double nearest to a number. -/
def nearestDouble (q : ℚ) : ℚ :=
  halfEven (q / 2 ^ lastPlace q) * 2 ^ lastPlace q

variable {q r x y : ℚ}

theorem leastExponent_le_lastPlace (q : ℚ) : Binary64.leastExponent ≤ lastPlace q :=
  le_max_left _ _

theorem IsDouble.nonneg (h : IsDouble x) : 0 ≤ x := by
  obtain ⟨m, e, _, _, rfl⟩ := h
  positivity

theorem nearestDouble_nonneg (q : ℚ) : 0 ≤ nearestDouble q := by
  unfold nearestDouble
  positivity

@[simp] theorem nearestDouble_zero : nearestDouble 0 = 0 := by
  simp [nearestDouble]

/-- A number is rounded to at most fifty-three binary digits, or to the first number that has one
more. -/
theorem halfEven_div_lastPlace_le (h : 0 ≤ q) : halfEven (q / 2 ^ lastPlace q) ≤ 2 ^ 53 := by
  rcases h.eq_or_lt with rfl | hpos
  · simp
  · have hmono := halfEven_mono (by positivity) (div_lastPlace_lt hpos).le
    rwa [show (2 : ℚ) ^ 53 = (2 ^ 53 : ℕ) by norm_num, halfEven_natCast] at hmono

/-- It is rounded to at least fifty-three, unless it is among the smallest doubles. -/
theorem le_halfEven_div_lastPlace
    (h : 0 < q) (large : Binary64.leastExponent < lastPlace q) :
    2 ^ 52 ≤ halfEven (q / 2 ^ lastPlace q) := by
  have hmono := halfEven_mono (by positivity) (le_div_lastPlace h large)
  rwa [show (2 : ℚ) ^ 52 = (2 ^ 52 : ℕ) by norm_num, halfEven_natCast] at hmono

theorem isDouble_nearestDouble (h : 0 ≤ q) : IsDouble (nearestDouble q) := by
  rcases (halfEven_div_lastPlace_le h).eq_or_lt with hfull | hlt
  · refine ⟨2 ^ 52, lastPlace q + 1, by norm_num, ?_, ?_⟩
    · have := leastExponent_le_lastPlace q
      omega
    · rw [nearestDouble, hfull, zpow_add_one₀ two_ne_zero]
      push_cast
      ring
  · exact ⟨_, _, hlt, leastExponent_le_lastPlace q, rfl⟩

/-- No double is nearer to a number. -/
theorem abs_sub_nearestDouble_le
    (hq : 0 ≤ q) (hy : IsDouble y) :
    |q - nearestDouble q| ≤ |q - y| := by
  rcases hq.eq_or_lt with rfl | hpos
  · simp
  have hunit : (0 : ℚ) < 2 ^ lastPlace q := by positivity
  have hscaled (k : ℕ) :
      |q - nearestDouble q| ≤ |q - k * 2 ^ lastPlace q| := by
    have hspec := (isHalfEven_halfEven (div_nonneg hq hunit.le)).abs_sub_le k
    have hdiff (n : ℕ) :
        |q - n * 2 ^ lastPlace q| = |q / 2 ^ lastPlace q - n| * 2 ^ lastPlace q := by
      rw [← abs_of_pos hunit, ← abs_mul, abs_of_pos hunit, sub_mul, div_mul_cancel₀ _ hunit.ne']
    rw [nearestDouble, hdiff, hdiff]
    gcongr
  obtain ⟨m, e, hm, he, rfl⟩ := hy
  rcases le_or_gt (lastPlace q) e with hcoarse | hfine
  · have hmultiple : (m : ℚ) * 2 ^ e = (m * 2 ^ (e - lastPlace q).toNat : ℕ) * 2 ^ lastPlace q := by
      have hexponent : e = (e - lastPlace q).toNat + lastPlace q := by omega
      push_cast
      rw [mul_assoc, ← zpow_natCast, ← zpow_add₀ two_ne_zero, ← hexponent]
    rw [hmultiple]
    exact hscaled _
  · -- finer doubles lie below the least multiple with fifty-three digits, which is not above `q`
    have hlow := (le_div_iff₀ hunit).1 (le_div_lastPlace hpos (he.trans_lt hfine))
    have hbelow : (m : ℚ) * 2 ^ e ≤ 2 ^ 52 * 2 ^ lastPlace q := by
      have hm' : (m : ℚ) ≤ 2 ^ 53 := by exact_mod_cast hm.le
      calc (m : ℚ) * 2 ^ e ≤ 2 ^ 53 * 2 ^ (lastPlace q - 1) := by
            gcongr
            · norm_num
            · exact Int.le_sub_one_of_lt hfine
        _ = 2 ^ 52 * 2 ^ lastPlace q := by
            rw [zpow_sub_one₀ two_ne_zero]
            ring
    have hnear := hscaled (2 ^ 52)
    rw [Nat.cast_pow, Nat.cast_ofNat] at hnear
    rw [abs_of_nonneg (by linarith : (0 : ℚ) ≤ q - 2 ^ 52 * 2 ^ lastPlace q)] at hnear
    rw [abs_of_nonneg (by linarith : (0 : ℚ) ≤ q - m * 2 ^ e)]
    linarith

theorem nearestDouble_of_isDouble (h : IsDouble x) : nearestDouble x = x := by
  have hnear := abs_sub_nearestDouble_le h.nonneg h
  rw [sub_self, abs_zero] at hnear
  linarith [abs_nonpos_iff.1 hnear]

/-- The nearest double grows with the number. -/
theorem nearestDouble_mono
    (hq : 0 ≤ q) (h : q ≤ r) :
    nearestDouble q ≤ nearestDouble r := by
  rcases h.eq_or_lt with rfl | hlt
  · exact le_rfl
  by_contra hcross
  have hr : 0 ≤ r := hq.trans h
  have hq_near := abs_sub_nearestDouble_le hq (isDouble_nearestDouble hr)
  have hr_near := abs_sub_nearestDouble_le hr (isDouble_nearestDouble hq)
  -- both numbers would lie on the wrong side of the middle between the two doubles
  rw [← sq_le_sq] at hq_near hr_near
  have hgap : 0 < nearestDouble q - nearestDouble r := by linarith
  have hprod := mul_pos hgap (sub_pos.2 hlt)
  nlinarith

/-- The nearest double differs from a number by half a unit of its last place at most. -/
theorem abs_sub_nearestDouble_le_half (h : 0 ≤ q) :
    |q - nearestDouble q| ≤ 2 ^ lastPlace q / 2 := by
  have hunit : (0 : ℚ) < 2 ^ lastPlace q := by positivity
  have hspec := isHalfEven_halfEven (div_nonneg h hunit.le)
  have habove := mul_le_mul_of_nonneg_right hspec.above hunit.le
  have hbelow := mul_le_mul_of_nonneg_right hspec.below hunit.le
  rw [div_mul_cancel₀ _ hunit.ne'] at habove hbelow
  unfold nearestDouble
  exact abs_le.2 ⟨by linarith, by linarith⟩

/-- Large doubles are integers. -/
theorem IsDouble.exists_nat
    (h : IsDouble x) (large : 2 ^ 53 ≤ x) :
    ∃ n : ℕ, x = n := by
  obtain ⟨m, e, hm, _, rfl⟩ := h
  have hm' : (m : ℚ) < 2 ^ 53 := by exact_mod_cast hm
  rcases le_or_gt 0 e with hnonneg | hneg
  · lift e to ℕ using hnonneg
    exact ⟨m * 2 ^ e, by push_cast; rfl⟩
  · have hsmall : (2 : ℚ) ^ e ≤ 1 := zpow_le_one_of_nonpos₀ (by norm_num) hneg.le
    have hle : (m : ℚ) * 2 ^ e ≤ m * 1 := by gcongr
    linarith

end Nearest

namespace Binary64

/-- The least number that is too large for a finite double. -/
def overflow : ℚ := 2 ^ 1024

theorem two_pow_le_overflow {n : ℕ} (h : n ≤ 1024) : 2 ^ n ≤ overflow := by
  unfold overflow
  gcongr
  norm_num

/-- A double is finite as long as its exponent is, if it is in normal form beyond that. -/
theorem overflow_le_iff
    {m : ℕ} {e : ℤ}
    (hm : m < 2 ^ 53) (normal : 971 < e → 2 ^ 52 ≤ m) :
    overflow ≤ (m : ℚ) * 2 ^ e ↔ 971 < e := by
  have hoverflow {n : ℕ} {k : ℤ} (h : n + k = 1024) : (2 : ℚ) ^ n * 2 ^ k = overflow := by
    unfold overflow
    rw [← zpow_natCast, ← zpow_natCast, ← zpow_add₀ two_ne_zero, h]
    rfl
  constructor
  · intro hover
    by_contra he
    have hm' : (m : ℚ) < 2 ^ 53 := by exact_mod_cast hm
    have hless : (m : ℚ) * 2 ^ e < overflow :=
      calc (m : ℚ) * 2 ^ e < 2 ^ 53 * 2 ^ e := by gcongr
        _ ≤ 2 ^ 53 * 2 ^ (971 : ℤ) := by
            gcongr
            · norm_num
            · exact Int.not_lt.1 he
        _ = overflow := hoverflow (by norm_num)
    exact absurd hover (not_le.2 hless)
  · intro he
    have hm' : (2 : ℚ) ^ 52 ≤ m := by exact_mod_cast normal he
    calc overflow = 2 ^ 52 * 2 ^ (972 : ℤ) := (hoverflow (by norm_num)).symm
      _ ≤ m * 2 ^ e := by
          gcongr
          · norm_num
          · exact he

/-- A quotient is taken to the nearest double, or beyond the finite ones. -/
theorem exists_nearest_eq
    (negative : Bool) (num : ℕ) {den : ℕ}
    (positive : 0 < den) :
    ∃ (m : ℕ) (e : ℤ), m * 2 ^ e = nearestDouble (num / den) ∧
      nearest negative num den
        = if overflow ≤ nearestDouble (num / den) then .infinite negative
          else .finite negative m e := by
  rcases Nat.eq_zero_or_pos num with rfl | hnum
  · refine ⟨0, leastExponent, by simp, ?_⟩
    rw [nearest, if_pos rfl, Nat.cast_zero, zero_div, nearestDouble_zero,
      if_neg (by norm_num [overflow])]
  have hq : (0 : ℚ) < num / den := by positivity
  have hunit : 0 < den * Nat.pow 2 (exponentFor num den).toNat :=
    Nat.mul_pos positive (Nat.two_pow_pos _)
  have hround := roundHalfEven_eq (num * Nat.pow 2 (-exponentFor num den).toNat) hunit
  rw [scaled_eq, exponentFor_eq hnum positive] at hround
  have hleast := leastExponent_le_lastPlace (num / den : ℚ)
  have hfull := halfEven_div_lastPlace_le hq.le
  have hnormal := le_halfEven_div_lastPlace hq
  unfold nearest
  rw [if_neg hnum.ne']
  simp only [exponentFor_eq hnum positive, hround]
  unfold nearestDouble
  generalize lastPlace (num / den : ℚ) = e at *
  generalize halfEven (num / den / 2 ^ e) = m at *
  -- a significand of fifty-four digits is the first of the next exponent
  obtain ⟨m', e', hpair, hvalue, hm', hnormal'⟩ : ∃ (m' : ℕ) (e' : ℤ),
      (if m = Nat.pow 2 53 then (Nat.pow 2 52, e + 1) else (m, e)) = (m', e') ∧
        (m' : ℚ) * 2 ^ e' = m * 2 ^ e ∧ m' < 2 ^ 53 ∧ (leastExponent < e' → 2 ^ 52 ≤ m') := by
    by_cases hm : m = Nat.pow 2 53
    · refine ⟨_, _, if_pos hm, ?_, by norm_num, fun _ => le_rfl⟩
      rw [hm, zpow_add_one₀ two_ne_zero, Nat.pow_eq, Nat.pow_eq]
      push_cast
      ring
    · exact ⟨_, _, if_neg hm, rfl, lt_of_le_of_ne hfull hm, hnormal⟩
  refine ⟨m', e', hvalue, ?_⟩
  simp only [hpair, ← hvalue]
  simp only [← overflow_le_iff hm' fun he => hnormal' (lt_trans (by decide) he)]

end Binary64

section Decimals

/-- The magnitude of a decimal. -/
def magnitude (coefficient : ℕ) (exponent : ℤ) : ℚ :=
  coefficient * 10 ^ exponent

theorem magnitude_nonneg (c : ℕ) (e : ℤ) : 0 ≤ magnitude c e := by
  unfold magnitude
  positivity

theorem magnitude_eq_div (c : ℕ) (e : ℤ) :
    magnitude c e = (c * Nat.pow 10 e.toNat : ℕ) / (Nat.pow 10 (-e).toNat : ℕ) := by
  unfold magnitude
  rcases Int.eq_nat_or_neg e with ⟨n, rfl | rfl⟩
  · simp
  · simp [div_eq_mul_inv]

/-- The digits of a decimal tell the power of ten that it lies below. -/
theorem magnitude_lt (c : ℕ) (e : ℤ) :
    magnitude c e < 10 ^ (e + (Nat.toDigits 10 c).length) := by
  have hdigits : c < 10 ^ (Nat.toDigits 10 c).length :=
    (Nat.length_toDigits_le_iff (by decide) Nat.length_toDigits_pos).1 le_rfl
  have hcast : (c : ℚ) < 10 ^ (Nat.toDigits 10 c).length := by exact_mod_cast hdigits
  rw [magnitude, add_comm, zpow_add₀ (by norm_num), zpow_natCast]
  gcongr

/-- A decimal does not lie below the power of ten before. -/
theorem le_magnitude {c : ℕ} (positive : 0 < c) (e : ℤ) :
    10 ^ (e + (Nat.toDigits 10 c).length - 1) ≤ magnitude c e := by
  have hdigits : 10 ^ ((Nat.toDigits 10 c).length - 1) ≤ c := by
    rcases Nat.lt_or_ge 1 (Nat.toDigits 10 c).length with hmany | hone
    · by_contra hlt
      have := (Nat.length_toDigits_le_iff (by decide) (by omega)).2 (Nat.lt_of_not_le hlt)
      omega
    · rw [Nat.sub_eq_zero_of_le hone]
      exact positive
  have hcast : (10 : ℚ) ^ ((Nat.toDigits 10 c).length - 1) ≤ c := by exact_mod_cast hdigits
  have hlength : 0 < (Nat.toDigits 10 c).length := Nat.length_toDigits_pos
  have hexponent : e + (Nat.toDigits 10 c).length - 1
      = ((Nat.toDigits 10 c).length - 1 : ℕ) + e := by omega
  rw [magnitude, hexponent, zpow_add₀ (by norm_num), zpow_natCast]
  gcongr

theorem nearestDouble_eq_zero
    {q : ℚ}
    (hq : 0 ≤ q) (small : q < 2 ^ (-1075 : ℤ)) :
    nearestDouble q = 0 := by
  rcases hq.eq_or_lt with rfl | hpos
  · exact nearestDouble_zero
  have hlog := (lt_two_zpow_iff hpos _).1 small
  have hplace : lastPlace q = -1074 := by
    unfold lastPlace Binary64.leastExponent
    omega
  have hscaled : q / 2 ^ (-1074 : ℤ) < 1 / 2 := by
    rw [div_lt_iff₀ (by positivity)]
    calc q < 2 ^ (-1075 : ℤ) := small
      _ = 2 ^ (-1 : ℤ) * 2 ^ (-1074 : ℤ) := by rw [← zpow_add₀ two_ne_zero]; rfl
      _ = 1 / 2 * 2 ^ (-1074 : ℤ) := by norm_num
  have hround : halfEven (q / 2 ^ (-1074 : ℤ)) = 0 := by
    refine halfEven_eq_of_abs_lt (by positivity) ?_
    rw [Nat.cast_zero, sub_zero, abs_of_nonneg (by positivity)]
    exact hscaled
  rw [nearestDouble, hplace, hround, Nat.cast_zero, zero_mul]

theorem overflow_le : Binary64.overflow ≤ 10 ^ (330 : ℤ) := by
  calc Binary64.overflow = ((2 : ℚ) ^ 128) ^ 8 := pow_mul 2 128 8
    _ ≤ (10 ^ 41) ^ 8 := by
        gcongr
        norm_num
    _ = 10 ^ 328 := (pow_mul 10 41 8).symm
    _ ≤ 10 ^ 330 := by
        gcongr
        · norm_num
        · norm_num
    _ = 10 ^ (330 : ℤ) := (zpow_natCast 10 330).symm

theorem underflow_le : (10 : ℚ) ^ (-331 : ℤ) ≤ 2 ^ (-1075 : ℤ) := by
  have hpowers : (2 : ℚ) ^ 1075 ≤ 10 ^ 331 := by
    calc (2 : ℚ) ^ 1075 = (2 ^ 215) ^ 5 := pow_mul 2 215 5
      _ ≤ (10 ^ 66) ^ 5 := by
          gcongr
          norm_num
      _ = 10 ^ 330 := (pow_mul 10 66 5).symm
      _ ≤ 10 ^ 331 := by
          gcongr
          · norm_num
          · norm_num
  calc (10 : ℚ) ^ (-331 : ℤ) = (10 ^ 331)⁻¹ := zpow_neg_coe_of_pos 10 (by decide)
    _ ≤ (2 ^ 1075)⁻¹ := by gcongr
    _ = 2 ^ (-1075 : ℤ) := (zpow_neg_coe_of_pos 2 (by decide)).symm

/-- A decimal is taken to the nearest double, or beyond the finite ones. -/
theorem Binary64.exists_ofDecimal_eq
    (negative : Bool) (c : ℕ) (e : ℤ) :
    ∃ (m : ℕ) (e' : ℤ), m * 2 ^ e' = nearestDouble (magnitude c e) ∧
      ofDecimal (.finite negative c e)
        = if overflow ≤ nearestDouble (magnitude c e) then .infinite negative
          else .finite negative m e' := by
  unfold ofDecimal
  dsimp only
  split
  · rename_i h
    have hzero : nearestDouble (magnitude c e) = 0 := by
      rcases h with rfl | htop
      · simp [magnitude]
      · refine nearestDouble_eq_zero (magnitude_nonneg c e) ?_
        calc magnitude c e < 10 ^ (e + (Nat.toDigits 10 c).length) := magnitude_lt c e
          _ ≤ 10 ^ (-331 : ℤ) := by
              gcongr
              · norm_num
              · exact Int.le_sub_one_of_lt htop
          _ ≤ 2 ^ (-1075 : ℤ) := underflow_le
    exact ⟨0, leastExponent, by rw [hzero]; simp, by rw [hzero, if_neg (by norm_num [overflow])]⟩
  · rename_i h
    obtain ⟨hc, _⟩ := not_or.1 h
    split
    · rename_i htop
      have hdouble : IsDouble overflow :=
        ⟨1, 1024, by norm_num, by decide, by norm_num [overflow]⟩
      have hover : overflow ≤ nearestDouble (magnitude c e) := by
        rw [← nearestDouble_of_isDouble hdouble]
        refine nearestDouble_mono hdouble.nonneg ?_
        calc overflow ≤ 10 ^ (330 : ℤ) := overflow_le
          _ ≤ 10 ^ (e + (Nat.toDigits 10 c).length - 1) := by
              gcongr
              · norm_num
              · exact Int.le_sub_one_of_lt htop
          _ ≤ magnitude c e := le_magnitude (Nat.pos_of_ne_zero hc) e
      obtain ⟨m, e', _, _, hvalue⟩ := isDouble_nearestDouble (magnitude_nonneg c e)
      exact ⟨m, e', hvalue.symm, (if_pos hover).symm⟩
    · rw [magnitude_eq_div]
      exact exists_nearest_eq negative _ (Nat.pow_pos (by decide))

end Decimals

end Number
end CardCatalog
