import CardCatalog.Proofs.NearestDoubles
import CardCatalog.Size
import Mathlib.Data.EReal.Operations

/-!
# Sizes in hundredths

A size is rounded twice, to the nearest double and then to hundredths.  A size that went through
both stages stays where it is when it goes through them again: the double that is found for it is
not farther away than the one that it came from.  Only the sign of no hundredths is lost, since
that of an integer is not stored.

Results: what becomes of a decimal (`Size.ofDecimal?_finite`), of one in hundredths
(`hundredthsOf_magnitude`), and of one that has been read back (`Size.ofDecimal?_toDecimal`); and
that sizes grow with the decimals (`Size.value_mono`).
-/

namespace CardCatalog

open Number

namespace Number

/-- The hundredths that are read back of the double nearest to a number. -/
def hundredthsOf (q : ℚ) : ℕ :=
  halfEven (nearestDouble q * 100)

@[simp] theorem hundredthsOf_zero : hundredthsOf 0 = 0 := by
  simp [hundredthsOf]

theorem hundredths_nonneg (n : ℕ) : (0 : ℚ) ≤ n / 100 := by
  positivity

variable {q r : ℚ}

theorem isHalfEven_hundredthsOf (q : ℚ) : IsHalfEven (nearestDouble q * 100) (hundredthsOf q) :=
  isHalfEven_halfEven (mul_nonneg (nearestDouble_nonneg q) (by norm_num))

theorem hundredthsOf_mono
    (hq : 0 ≤ q) (h : q ≤ r) :
    hundredthsOf q ≤ hundredthsOf r := by
  refine halfEven_mono (mul_nonneg (nearestDouble_nonneg q) (by norm_num)) ?_
  have := nearestDouble_mono hq h
  linarith

section Again

/-- A number of hundredths that comes from a double is nearest to the double that is found for it,
too. -/
theorem hundredthsOf_hundredths
    (h : 0 ≤ q) :
    hundredthsOf (hundredthsOf q / 100) = hundredthsOf q := by
  have hspec := isHalfEven_hundredthsOf q
  have hnear := abs_sub_nearestDouble_le (hundredths_nonneg (hundredthsOf q))
    (isDouble_nearestDouble h)
  have hnonneg := nearestDouble_nonneg (hundredthsOf q / 100)
  have habove := hspec.above
  have hbelow := hspec.below
  have hdistance : |(hundredthsOf q : ℚ) / 100 - nearestDouble q| ≤ 1 / 200 :=
    abs_le.2 ⟨by linarith, by linarith⟩
  obtain ⟨hlow, hhigh⟩ := abs_le.1 (hnear.trans hdistance)
  -- a double that lies halfway is as far away as the first one, which lies halfway then, too
  have hhalfway (tie : 1 / 200 ≤ |(hundredthsOf q : ℚ) / 100 - nearestDouble (hundredthsOf q / 100)|) :
      Even (hundredthsOf q) := by
    rcases le_abs.1 (tie.trans hnear) with hleft | hright
    · exact hspec.even_of_below (by linarith)
    · exact hspec.even_of_above (by linarith)
  refine IsHalfEven.eq_halfEven ⟨by linarith, by linarith, fun hx => ?_, fun hx => ?_⟩
    (mul_nonneg hnonneg (by norm_num))
  · exact hhalfway (le_abs.2 (.inl (by linarith)))
  · exact hhalfway (le_abs.2 (.inr (by linarith)))

/-- The double that is found for them is finite if the first one was. -/
theorem nearestDouble_hundredths_lt
    (h : 0 ≤ q) (finite : nearestDouble q < Binary64.overflow) :
    nearestDouble (hundredthsOf q / 100) < Binary64.overflow := by
  have hquotient := hundredths_nonneg (hundredthsOf q)
  have hspec := isHalfEven_hundredthsOf q
  have habove := hspec.above
  have hbelow := hspec.below
  have hdistance : |(hundredthsOf q : ℚ) / 100 - nearestDouble q| ≤ 1 / 200 :=
    abs_le.2 ⟨by linarith, by linarith⟩
  obtain ⟨hlow, hhigh⟩ := abs_le.1
    ((abs_sub_nearestDouble_le hquotient (isDouble_nearestDouble h)).trans hdistance)
  have hscale : (2 : ℚ) ^ 54 ≤ Binary64.overflow := Binary64.two_pow_le_overflow (by decide)
  refine lt_of_not_ge fun hover => ?_
  have hlarge := hscale.trans hover
  -- both doubles are integers, and they differ by less than one
  obtain ⟨n, hn⟩ := (isDouble_nearestDouble h).exists_nat (by linarith)
  obtain ⟨m, hm⟩ := (isDouble_nearestDouble hquotient).exists_nat (by linarith)
  have hlt := finite.trans_le hover
  rw [hn, hm, Nat.cast_lt] at hlt
  have hstep : (n : ℚ) + 1 ≤ m := by exact_mod_cast hlt
  linarith

end Again

section Exact

/-- Up to ten to the thirteenth, the doubles are dense enough to tell the hundredths apart. -/
theorem abs_sub_nearestDouble_lt
    (hq : 0 ≤ q) (small : q ≤ 10 ^ 13) :
    |q - nearestDouble q| < 1 / 200 := by
  rcases hq.eq_or_lt with rfl | hpos
  · simp
  have hlog : Int.log 2 q < 44 := by
    refine (lt_two_zpow_iff hpos 44).1 (small.trans_lt ?_)
    norm_num
  have hplace : lastPlace q ≤ -9 := by
    unfold lastPlace Binary64.leastExponent
    omega
  calc |q - nearestDouble q| ≤ 2 ^ lastPlace q / 2 := abs_sub_nearestDouble_le_half hq
    _ ≤ 2 ^ (-9 : ℤ) / 2 := by
        gcongr
        norm_num
    _ < 1 / 200 := by norm_num

/-- A number of hundredths up to ten to the thirteenth is read back as it is. -/
theorem hundredthsOf_of_small
    {n : ℕ}
    (small : (n / 100 : ℚ) ≤ 10 ^ 13) :
    hundredthsOf (n / 100) = n := by
  have hnear := abs_sub_nearestDouble_lt (hundredths_nonneg n) small
  obtain ⟨hlow, hhigh⟩ := abs_lt.1 hnear
  refine halfEven_eq_of_abs_lt (mul_nonneg (nearestDouble_nonneg _) (by norm_num)) ?_
  exact abs_lt.2 ⟨by linarith, by linarith⟩

theorem nearestDouble_lt_of_small
    (hq : 0 ≤ q) (small : q ≤ 10 ^ 13) :
    nearestDouble q < Binary64.overflow := by
  obtain ⟨hlow, hhigh⟩ := abs_lt.1 (abs_sub_nearestDouble_lt hq small)
  calc nearestDouble q < 2 ^ 44 := by linarith
    _ ≤ Binary64.overflow := Binary64.two_pow_le_overflow (by decide)

end Exact

end Number

section Values

namespace Number

/-- A number with a sign. -/
noncomputable def signed (negative : Bool) (x : EReal) : EReal :=
  if negative then -x else x

/-- The number that a decimal is, if it is one. -/
noncomputable def Decimal.value? : Decimal → Option EReal
  | .finite negative coefficient exponent =>
    some (signed negative (magnitude coefficient exponent : ℝ))
  | .infinite negative => some (signed negative ⊤)
  | .nan _ => none

theorem magnitude_hundredths (n : ℕ) : magnitude n (-2) = n / 100 := by
  norm_num [magnitude, zpow_neg, div_eq_mul_inv]

theorem signed_coe (negative : Bool) (q : ℚ) :
    signed negative (q : ℝ) = ((if negative then -q else q : ℚ) : ℝ) := by
  cases negative <;> simp [signed]

/-- What grows with the magnitudes, from zero on, grows with the numbers. -/
theorem signed_le_signed
    {f : ℚ → EReal}
    (mono : ∀ q r, 0 ≤ q → q ≤ r → f q ≤ f r)
    (zero : f 0 = 0)
    {negative negative' : Bool} {q r : ℚ}
    (hq : 0 ≤ q) (hr : 0 ≤ r)
    (h : signed negative (q : ℝ) ≤ signed negative' (r : ℝ)) :
    signed negative (f q) ≤ signed negative' (f r) := by
  have nonneg {x : ℚ} (hx : 0 ≤ x) : 0 ≤ f x := zero ▸ mono 0 x le_rfl hx
  rw [signed_coe, signed_coe, EReal.coe_le_coe_iff, Rat.cast_le] at h
  cases negative with
  | false =>
      cases negative' with
      | false => exact mono q r hq h
      | true =>
          have hsum : q ≤ -r := h
          obtain rfl : q = 0 := by linarith
          obtain rfl : r = 0 := by linarith
          simp [signed, zero]
  | true =>
      cases negative' with
      | false =>
          calc -f q ≤ 0 := by simpa using nonneg hq
            _ ≤ f r := nonneg hr
      | true => exact EReal.neg_le_neg_iff.2 (mono r q hr (neg_le_neg_iff.1 h))

end Number

namespace Size

/-- What is read back of a number with a sign. -/
def rounded (negative : Bool) (q : ℚ) : Size :=
  if Binary64.overflow ≤ nearestDouble q then .infinite negative
  else .hundredths (negative && decide (nearestDouble q ≠ 0)) (hundredthsOf q)

/-- A decimal is read back in the hundredths of the nearest double, or as infinite. -/
theorem ofDecimal?_finite
    (negative : Bool) (c : ℕ) (e : ℤ) :
    ofDecimal? (.finite negative c e) = some (rounded negative (magnitude c e)) := by
  obtain ⟨m, e', hvalue, hdouble⟩ := Binary64.exists_ofDecimal_eq negative c e
  unfold ofDecimal? rounded
  rw [hdouble]
  split
  · rfl
  · have hhundredths : roundHalfEven (m * Nat.pow 2 e'.toNat * 100) (Nat.pow 2 (-e').toNat)
        = hundredthsOf (magnitude c e) := by
      have hden : 0 < Nat.pow 2 (-e').toNat := Nat.two_pow_pos _
      rw [roundHalfEven_eq _ hden, hundredthsOf, ← hvalue, two_zpow_eq]
      congr 1
      push_cast [Nat.pow_eq]
      ring
    have hzero : (m * Nat.pow 2 e'.toNat != 0) = decide (nearestDouble (magnitude c e) ≠ 0) := by
      have hunit : (2 : ℚ) ^ e' ≠ 0 := by positivity
      rw [← hvalue, Bool.eq_iff_iff]
      simp [hunit]
    simp only [ofBinary64?, Binary64.ratio, hhundredths, hzero]

/-- The magnitude of what is read back of a number. -/
noncomputable def roundedValue (q : ℚ) : EReal :=
  if Binary64.overflow ≤ nearestDouble q then ⊤ else ((hundredthsOf q / 100 : ℚ) : ℝ)

theorem roundedValue_mono
    (q r : ℚ)
    (hq : 0 ≤ q) (h : q ≤ r) :
    roundedValue q ≤ roundedValue r := by
  have hdouble := nearestDouble_mono hq h
  unfold roundedValue
  split
  · rename_i hover
    rw [if_pos (hover.trans hdouble)]
  · split
    · exact le_top
    · have hle : (hundredthsOf q / 100 : ℚ) ≤ hundredthsOf r / 100 := by
        have := hundredthsOf_mono hq h
        gcongr
      exact_mod_cast hle

theorem roundedValue_zero : roundedValue 0 = 0 := by
  have hfinite : ¬ Binary64.overflow ≤ 0 := by norm_num [Binary64.overflow]
  simp [roundedValue, hfinite]

theorem value?_rounded
    (negative : Bool) (q : ℚ) :
    (rounded negative q).toDecimal.value? = some (signed negative (roundedValue q)) := by
  unfold rounded roundedValue
  split
  · rfl
  · rw [toDecimal, Decimal.value?, magnitude_hundredths]
    by_cases hzero : nearestDouble q = 0
    · simp [hundredthsOf, hzero, signed]
    · simp [hzero]

/-- Sizes grow with the decimals that they are read back of. -/
theorem value_mono
    {d d' : Decimal} {v v' : Size} {x x' y y' : EReal}
    (hv : ofDecimal? d = some v) (hv' : ofDecimal? d' = some v')
    (hx : d.value? = some x) (hx' : d'.value? = some x')
    (hy : v.toDecimal.value? = some y) (hy' : v'.toDecimal.value? = some y')
    (h : x ≤ x') :
    y ≤ y' := by
  cases d with
  | nan => cases hx
  | infinite negative =>
      cases hv
      cases hx.symm.trans hy
      cases hx
      cases negative with
      | true => exact bot_le
      | false =>
          -- no finite decimal lies above, so the other one is infinite, too
          cases top_le_iff.1 h
          cases d' with
          | nan => cases hx'
          | infinite negative =>
              cases hv'
              cases hx'.symm.trans hy'
              exact le_rfl
          | finite negative c e =>
              rw [Decimal.value?, signed_coe, Option.some.injEq] at hx'
              exact absurd hx' (EReal.coe_ne_top _)
  | finite negative c e =>
      cases hv.symm.trans (ofDecimal?_finite negative c e)
      cases hy.symm.trans (value?_rounded negative _)
      cases hx
      cases d' with
      | nan => cases hx'
      | infinite negative' =>
          cases hv'
          cases hx'.symm.trans hy'
          cases hx'
          cases negative' with
          | true =>
              rw [signed_coe] at h
              exact absurd (le_bot_iff.1 h) (EReal.coe_ne_bot _)
          | false => exact le_top
      | finite negative' c' e' =>
          cases hv'.symm.trans (ofDecimal?_finite negative' c' e')
          cases hy'.symm.trans (value?_rounded negative' _)
          cases hx'
          exact signed_le_signed roundedValue_mono roundedValue_zero (magnitude_nonneg c e)
            (magnitude_nonneg c' e') h

/-- A decimal in hundredths is read back as it is, up to ten to the thirteenth. -/
theorem value?_of_hundredths
    {d : Decimal} {v : Size} {k : ℤ}
    (hv : ofDecimal? d = some v)
    (hd : d.value? = some (((k / 100 : ℚ) : ℝ) : EReal))
    (small : |k| ≤ 10 ^ 15) :
    v.toDecimal.value? = d.value? := by
  cases d with
  | nan => cases hd
  | infinite negative =>
      cases hv
      rfl
  | finite negative c e =>
      cases hv.symm.trans (ofDecimal?_finite negative c e)
      have hmagnitude : magnitude c e = (k.natAbs : ℕ) / 100 := by
        rw [Decimal.value?, signed_coe, Option.some.injEq, EReal.coe_eq_coe_iff, Rat.cast_inj] at hd
        have habs : |magnitude c e| = |(k : ℚ) / 100| := by
          rw [← hd]
          cases negative <;> simp
        rwa [abs_of_nonneg (magnitude_nonneg c e), abs_div, abs_of_pos (by norm_num : (0 : ℚ) < 100),
          ← Int.cast_abs, ← Int.natCast_natAbs, Int.cast_natCast] at habs
      have hsmall : (k.natAbs : ℚ) / 100 ≤ 10 ^ 13 := by
        have hcast : (k.natAbs : ℚ) ≤ 10 ^ 15 := by
          rw [← Int.natCast_natAbs] at small
          exact_mod_cast small
        linarith
      have hfinite := nearestDouble_lt_of_small (hundredths_nonneg _) hsmall
      rw [value?_rounded, Decimal.value?, hmagnitude, roundedValue, if_neg (not_le.2 hfinite),
        hundredthsOf_of_small hsmall]

/-- What has been read back is read back again, but for the sign of no hundredths. -/
theorem ofDecimal?_toDecimal
    {d : Decimal} {v : Size}
    (h : ofDecimal? d = some v) :
    ofDecimal? v.toDecimal = some (if v = .hundredths true 0 then .hundredths false 0 else v) := by
  cases d with
  | nan => cases h
  | infinite negative =>
      cases h
      rfl
  | finite negative c e =>
      cases h.symm.trans (ofDecimal?_finite negative c e)
      have hq := magnitude_nonneg c e
      generalize magnitude c e = q at hq
      unfold rounded
      split
      · rfl
      · rename_i hfinite
        have hagain := hundredthsOf_hundredths hq
        have hfinite' := nearestDouble_hundredths_lt hq (not_le.1 hfinite)
        generalize (negative && decide (nearestDouble q ≠ 0)) = sign
        generalize hundredthsOf q = n at hagain hfinite'
        rw [toDecimal, ofDecimal?_finite, magnitude_hundredths, rounded, if_neg (not_le.2 hfinite'),
          hagain]
        rcases Nat.eq_zero_or_pos n with rfl | hpos
        · cases sign <;> simp
        · have hdouble : nearestDouble (n / 100) ≠ 0 := by
            intro hzero
            rw [hundredthsOf, hzero, zero_mul, halfEven_zero] at hagain
            omega
          simp [hdouble, hpos.ne']

/-- A size that is read back has few digits. -/
theorem length_toDigits_le
    {d : Decimal} {negative : Bool} {n : ℕ}
    (h : ofDecimal? d = some (.hundredths negative n)) :
    (Nat.toDigits 10 n).length ≤ 400 := by
  cases d with
  | nan => cases h
  | infinite negative => cases h
  | finite negative' c e =>
      rw [ofDecimal?_finite, rounded, Option.some.injEq] at h
      split at h
      · cases h
      · rename_i hfinite
        cases h
        have hsmall := (not_le.1 hfinite).trans_le overflow_le
        have habove := (isHalfEven_hundredthsOf (magnitude c e)).above
        clear hfinite
        have hone : (1 : ℚ) ≤ 10 ^ 330 := one_le_pow₀ (by norm_num)
        have hlt : (hundredthsOf (magnitude c e) : ℚ) < 10 ^ 400 := by
          rw [pow_add 10 330 70]
          rw [show (10 : ℚ) ^ (330 : ℤ) = 10 ^ 330 from zpow_natCast 10 330] at hsmall
          generalize (10 : ℚ) ^ 330 = top at hsmall hone ⊢
          linarith
        have hdigits (k : ℕ) (hk : 0 < k) (h : (hundredthsOf (magnitude c e) : ℚ) < 10 ^ k) :
            (Nat.toDigits 10 (hundredthsOf (magnitude c e))).length ≤ k :=
          (Nat.length_toDigits_le_iff (by decide) hk).2 (by exact_mod_cast h)
        exact hdigits 400 (by decide) hlt

end Size

end Values

end CardCatalog
