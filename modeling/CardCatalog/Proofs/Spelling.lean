import CardCatalog.Text.Lower
import Mathlib.Data.List.Forall2

/-!
# Spellings of a name

Names that differ in case alone spell the same name.  No ASCII capital is left in a name in lower
case, and of the letters of other scripts only the Kelvin sign has an ASCII letter for its
lower-case form.  So a name in lower case that spells an ASCII name is that name, letter by letter;
and an ASCII name without a k is spelled by ASCII letters alone.

Results: what a name in lower case is made of (`isLow_of_mem_lower`), which of such names spell
an ASCII name (`eq_of_lower_eq`), and what spells a name of small ASCII letters without a k
(`lower_eq_iff_spells`).
-/

namespace CardCatalog
namespace Text

/-- Whether a character is no ASCII capital, and not the Kelvin sign. -/
def IsLow (c : Char) : Prop :=
  ¬ (0x41 ≤ c.toNat ∧ c.toNat ≤ 0x5a) ∧ c.toNat ≠ 0x212a

section Runs

/-- The small letters of the capitals from one code point up to another are characters, and are
neither ASCII capitals nor the Kelvin sign. -/
def IsMoved (first last : Nat) (distance : Int) : Prop :=
  (last + distance < 0xd800 ∨ 0xe000 ≤ first + distance ∧ last + distance < 0x110000) ∧
    (last + distance < 0x41 ∨ 0x5a < first + distance) ∧
    (last + distance < 0x212a ∨ 0x212a < first + distance) ∧
    0x41 ≤ first + distance

instance (first last : Nat) (distance : Int) : Decidable (IsMoved first last distance) :=
  inferInstanceAs (Decidable (_ ∧ _))

theorem isMoved_of_mem_capitalRuns : ∀ r ∈ capitalRuns, IsMoved r.1 r.2.1 r.2.2.2 := by
  decide +kernel

/-- Of the small letters, only those of the ASCII capitals and of the Kelvin sign are ASCII. -/
theorem first_of_mem_capitalRuns :
    ∀ r ∈ capitalRuns, (r.1 : Int) + r.2.2.2 < 0x80 →
      0x41 ≤ r.1 ∧ r.2.1 ≤ 0x5a ∨ r.1 = 0x212a ∧ r.2.1 = 0x212a := by
  decide +kernel

/-- Of the capitals, only the ASCII capitals are ASCII. -/
theorem ascii_of_mem_capitalRuns :
    ∀ r ∈ capitalRuns, r.1 < 0x80 → 0x41 ≤ r.1 ∧ r.2.1 ≤ 0x5a ∧ r.2.2.2 = 32 := by
  decide +kernel

/-- What the lower-case form of a character is: that of the dotted capital I, a letter of a run,
or the character itself, if it is in none. -/
theorem lowerChar_cases (c : Char) :
    c.toNat = 0x130 ∧ lowerChar c = ['i', Char.ofNat 0x307] ∨
      (∃ r ∈ capitalRuns, r.1 ≤ c.toNat ∧ c.toNat ≤ r.2.1 ∧
        lowerChar c = [Char.ofNat ((c.toNat : Int) + r.2.2.2).toNat]) ∨
      lowerChar c = [c] ∧ IsLow c := by
  unfold lowerChar
  dsimp only
  split
  · rename_i hdotted
    exact .inl ⟨by simpa using hdotted, rfl⟩
  split
  · rename_i r hr
    have hin := List.find?_some hr
    simp only [Bool.and_eq_true, decide_eq_true_eq] at hin
    exact .inr (.inl ⟨r, List.mem_of_find?_eq_some hr, hin.1.1, hin.1.2, rfl⟩)
  · rename_i hnone
    have hout (r : Nat × Nat × Nat × Int) (hr : r ∈ capitalRuns) (hstep : r.2.2.1 = 1) :
        ¬ (r.1 ≤ c.toNat ∧ c.toNat ≤ r.2.1) := by
      have := List.find?_eq_none.1 hnone r hr
      simpa [hstep, Nat.mod_one] using this
    refine .inr (.inr ⟨rfl, hout (0x41, 0x5a, 1, 32) (by decide) rfl, fun hkelvin => ?_⟩)
    exact hout (0x212a, 0x212a, 1, -8383) (by decide +kernel) rfl
      ⟨Nat.le_of_eq hkelvin.symm, Nat.le_of_eq hkelvin⟩

/-- The number of a small letter of a run. -/
theorem toNat_moved
    {r : Nat × Nat × Nat × Int} {n : Nat}
    (hr : r ∈ capitalRuns) (hfirst : r.1 ≤ n) (hlast : n ≤ r.2.1) :
    ((Char.ofNat ((n : Int) + r.2.2.2).toNat).toNat : Int) = n + r.2.2.2 := by
  obtain ⟨hvalid, _, _, hlow⟩ := isMoved_of_mem_capitalRuns r hr
  have hnat : (((n : Int) + r.2.2.2).toNat : Int) = n + r.2.2.2 := Int.toNat_of_nonneg (by omega)
  have hchar : ((n : Int) + r.2.2.2).toNat.isValidChar := by
    unfold Nat.isValidChar
    omega
  rw [Char.ofNat, dif_pos hchar]
  exact hnat

theorem isLow_of_mem_lowerChar
    {c d : Char}
    (h : d ∈ lowerChar c) :
    IsLow d := by
  rcases lowerChar_cases c with ⟨_, hdotted⟩ | ⟨r, hr, hfirst, hlast, hmoved⟩ | ⟨hself, hlow⟩
  · rw [hdotted] at h
    rcases List.mem_cons.1 h with rfl | h
    · exact ⟨by decide, by decide⟩
    · rw [List.mem_singleton.1 h]
      exact ⟨by decide, by decide⟩
  · rw [hmoved, List.mem_singleton] at h
    have hnat := toNat_moved hr hfirst hlast
    rw [← h] at hnat
    obtain ⟨_, hcapital, hkelvin, _⟩ := isMoved_of_mem_capitalRuns r hr
    exact ⟨by omega, by omega⟩
  · rw [hself, List.mem_singleton] at h
    exact h ▸ hlow

/-- What is checked of every ASCII character holds of them. -/
theorem forall_ascii
    {P : Char → Prop}
    (h : ∀ n < 0x80, P (Char.ofNat n))
    {c : Char} (ascii : c.toNat < 0x80) :
    P c := by
  have hc := h c.toNat ascii
  rwa [Char.ofNat_toNat] at hc

theorem toLower_eq_self
    {c : Char}
    (low : IsLow c) :
    c.toLower = c :=
  dif_neg low.1

/-- Of the ASCII characters, the ASCII capitals alone have another lower-case form. -/
theorem lowerChar_of_ascii
    {c : Char}
    (ascii : c.toNat < 0x80) :
    lowerChar c = [c.toLower] := by
  rcases lowerChar_cases c with ⟨hdotted, _⟩ | ⟨r, hr, hfirst, hlast, hmoved⟩ | ⟨hself, hlow⟩
  · omega
  · obtain ⟨hA, hZ, hdistance⟩ := ascii_of_mem_capitalRuns r hr (by omega)
    have hsmall : 0x41 ≤ c.toNat → c.toNat ≤ 0x5a →
        Char.ofNat ((c.toNat : Int) + 32).toNat = c.toLower :=
      forall_ascii (P := fun c => 0x41 ≤ c.toNat → c.toNat ≤ 0x5a →
        Char.ofNat ((c.toNat : Int) + 32).toNat = c.toLower) (by decide +kernel) ascii
    rw [hmoved, hdistance, hsmall (by omega) (by omega)]
  · rw [hself, toLower_eq_self hlow]

/-- A character with a lower-case form of ASCII characters is ASCII, unless it is the Kelvin sign. -/
theorem ascii_of_lowerChar
    {c : Char}
    (ascii : ∀ d ∈ lowerChar c, d.toNat < 0x80) (kelvin : c ≠ Char.ofNat 0x212a) :
    c.toNat < 0x80 := by
  rcases lowerChar_cases c with ⟨_, hdotted⟩ | ⟨r, hr, hfirst, hlast, hmoved⟩ | ⟨hself, _⟩
  · exact absurd (ascii (Char.ofNat 0x307) (by simp [hdotted])) (by decide)
  · have hnat := toNat_moved hr hfirst hlast
    have hsmall := ascii _ (by rw [hmoved]; exact List.mem_singleton_self _)
    rcases first_of_mem_capitalRuns r hr (by omega) with h | h
    · omega
    · have hc : c = Char.ofNat 0x212a := by
        rw [← Char.ofNat_toNat c, show c.toNat = 0x212a by omega]
      exact absurd hc kelvin
  · exact ascii c (by simp [hself])

end Runs

section Codes

/-- Whether a code is a half, or a low character. -/
def Code.IsLow : Code → Prop
  | char c => Text.IsLow c
  | half _ => True

theorem Code.IsLow.ne_kelvin {c : Code} (low : c.IsLow) : c ≠ .char (Char.ofNat 0x212a) := by
  rintro rfl
  exact low.2 (by decide)

theorem isLow_of_mem_lowerCode
    {before after : List Code} {c d : Code}
    (h : d ∈ lowerCode before c after) :
    d.IsLow := by
  unfold lowerCode at h
  split at h
  · rw [List.mem_singleton] at h
    subst h
    split
    · exact ⟨by decide, by decide⟩
    · exact ⟨by decide, by decide⟩
  · obtain ⟨e, he, rfl⟩ := List.mem_map.1 h
    exact isLow_of_mem_lowerChar he
  · rw [List.mem_singleton] at h
    subst h
    exact trivial

theorem isLow_of_mem_lowerCodes
    {before codes : List Code} {c : Code}
    (h : c ∈ lowerCodes before codes) :
    c.IsLow := by
  induction codes generalizing before with
  | nil => cases h
  | cons d codes ih =>
      rcases List.mem_append.1 h with h | h
      · exact isLow_of_mem_lowerCode h
      · exact ih h

/-- In lower case, a text has neither ASCII capitals nor Kelvin signs. -/
theorem isLow_of_mem_lower
    {w : Wide} {c : Code}
    (h : c ∈ w.lower.codes) :
    c.IsLow :=
  isLow_of_mem_lowerCodes h

/-- Whether a code is an ASCII character. -/
def Code.IsAscii : Code → Prop
  | char c => c.toNat < 0x80
  | half _ => False

instance : DecidablePred Code.IsAscii
  | .char c => inferInstanceAs (Decidable (c.toNat < 0x80))
  | .half _ => inferInstanceAs (Decidable False)

theorem lowerCode_of_ne_sigma
    {before after : List Code} {c : Char}
    (h : c ≠ 'Σ') :
    lowerCode before (.char c) after = (lowerChar c).map .char := by
  unfold lowerCode
  split
  · rename_i hsigma
    exact absurd (Code.char.inj hsigma) h
  · rename_i d _ hd
    rw [Code.char.inj hd]
  · rename_i hhalf
    cases hhalf

theorem lowerCode_of_ascii
    {before after : List Code} {c : Char}
    (ascii : c.toNat < 0x80) :
    lowerCode before (.char c) after = [.char c.toLower] := by
  have hsigma : c ≠ 'Σ' := by
    rintro rfl
    exact absurd ascii (by decide)
  rw [lowerCode_of_ne_sigma hsigma, lowerChar_of_ascii ascii, List.map_singleton]

/-- The Kelvin sign has the small k for its lower-case form. -/
theorem lowerCode_kelvin
    {before after : List Code} :
    lowerCode before (.char (Char.ofNat 0x212a)) after = [.char 'k'] := by
  have hkelvin : lowerChar (Char.ofNat 0x212a) = ['k'] := by decide +kernel
  rw [lowerCode_of_ne_sigma (by decide), hkelvin, List.map_singleton]

/-- A code with a lower-case form of ASCII characters is ASCII, unless it is the Kelvin sign. -/
theorem isAscii_of_lowerCode
    {before after : List Code} {c : Code}
    (ascii : ∀ d ∈ lowerCode before c after, d.IsAscii)
    (kelvin : c ≠ .char (Char.ofNat 0x212a)) :
    c.IsAscii := by
  cases c with
  | half n => exact ascii (.half n) (List.mem_singleton_self _)
  | char c =>
      by_cases hsigma : c = 'Σ'
      · -- neither form of the small sigma is ASCII
        subst hsigma
        have hsmall := ascii _ (List.mem_singleton_self _)
        split at hsmall
        · exact absurd hsmall (by decide : ¬ (0x3c2 < 0x80))
        · exact absurd hsmall (by decide : ¬ (0x3c3 < 0x80))
      · rw [lowerCode_of_ne_sigma hsigma] at ascii
        exact ascii_of_lowerChar (fun d hd => ascii (.char d) (List.mem_map_of_mem hd))
          fun hc => kelvin (congrArg Code.char hc)

theorem isAscii_of_lowerCodes
    {before codes : List Code}
    (ascii : ∀ c ∈ lowerCodes before codes, c.IsAscii)
    (kelvin : ∀ c ∈ codes, c ≠ .char (Char.ofNat 0x212a)) :
    ∀ c ∈ codes, c.IsAscii := by
  induction codes generalizing before with
  | nil => exact fun _ h => nomatch h
  | cons c codes ih =>
      obtain ⟨hc, hcodes⟩ := List.forall_mem_cons.1 kelvin
      rw [lowerCodes] at ascii
      obtain ⟨hfirst, hrest⟩ := List.forall_mem_append.1 ascii
      exact List.forall_mem_cons.2 ⟨isAscii_of_lowerCode hfirst hc, ih hrest hcodes⟩

theorem lowerCodes_eq_self_of_ascii
    {before codes : List Code}
    (low : ∀ c ∈ codes, c.IsLow) (ascii : ∀ c ∈ codes, c.IsAscii) :
    lowerCodes before codes = codes := by
  induction codes generalizing before with
  | nil => rfl
  | cons c codes ih =>
      obtain ⟨hc, hcodes⟩ := List.forall_mem_cons.1 low
      obtain ⟨hca, hcodesa⟩ := List.forall_mem_cons.1 ascii
      have hself : lowerCode before c codes = [c] := by
        cases c with
        | half n => exact absurd hca not_false
        | char c => rw [lowerCode_of_ascii hca, toLower_eq_self hc]
      rw [lowerCodes, hself, ih hcodes hcodesa, List.singleton_append]

/-- A text of low characters that spells an ASCII text in lower case is that text. -/
theorem eq_of_lower_eq
    {w name : Wide}
    (low : ∀ c ∈ w.codes, c.IsLow) (ascii : ∀ c ∈ name.codes, c.IsAscii)
    (h : w.lower = name) :
    w = name := by
  have hcodes : lowerCodes [] w.codes = name.codes := congrArg Wide.codes h
  have hascii : ∀ c ∈ w.codes, c.IsAscii :=
    isAscii_of_lowerCodes (by rwa [hcodes]) fun c hc => (low c hc).ne_kelvin
  rw [lowerCodes_eq_self_of_ascii low hascii] at hcodes
  exact congrArg Wide.mk hcodes

/-- An ASCII text is in lower case once it has been brought to it. -/
theorem lower_lower_of_ascii
    {w : Wide}
    (ascii : ∀ c ∈ w.lower.codes, c.IsAscii) :
    w.lower.lower = w.lower :=
  congrArg Wide.mk (lowerCodes_eq_self_of_ascii (fun _ h => isLow_of_mem_lower h) ascii)

end Codes

section Names

/-- Whether a code is a character up to the case of ASCII letters, the only ones that
`Char.toLower` changes. -/
def Code.Spells (c : Code) (d : Char) : Prop :=
  ∃ e, c = .char e ∧ e.toLower = d.toLower

/-- Whether a text is a name up to the case of ASCII letters: it is as long, and its codes are the
letters of the name one by one. -/
def Wide.Spells (w : Wide) (name : String) : Prop :=
  List.Forall₂ Code.Spells w.codes name.toList

/-- Whether a character is a small ASCII letter that no letter of another script has for its
lower-case form. -/
structure IsPlainLetter (d : Char) : Prop where
  first : 0x61 ≤ d.toNat
  last : d.toNat ≤ 0x7a
  other : d ≠ 'k'

instance : DecidablePred IsPlainLetter := fun d =>
  decidable_of_iff (0x61 ≤ d.toNat ∧ d.toNat ≤ 0x7a ∧ d ≠ 'k')
    ⟨fun h => ⟨h.1, h.2.1, h.2.2⟩, fun h => ⟨h.first, h.last, h.other⟩⟩

theorem IsPlainLetter.ascii {d : Char} (h : IsPlainLetter d) : d.toNat < 0x80 :=
  Nat.lt_of_le_of_lt h.last (by decide)

theorem IsPlainLetter.toLower_eq_self {d : Char} (h : IsPlainLetter d) : d.toLower = d := by
  have hfirst := h.first
  have hlast := h.last
  exact Text.toLower_eq_self ⟨by omega, by omega⟩

/-- Only ASCII letters spell a small ASCII letter. -/
theorem ascii_of_toLower {c : Char} (h : c.toLower.toNat < 0x80) : c.toNat < 0x80 := by
  unfold Char.toLower at h
  split at h
  · rename_i hcapital
    exact Nat.lt_of_le_of_lt hcapital.2 (by decide)
  · exact h

/-- The texts that are in lower case a name of plain letters are those that spell it: a code that
has another lower-case form than that of ASCII has no plain letter in it. -/
theorem lowerCodes_eq_map_iff
    {before codes : List Code} {name : List Char}
    (plain : ∀ d ∈ name, IsPlainLetter d) :
    lowerCodes before codes = name.map .char ↔ List.Forall₂ Code.Spells codes name := by
  induction codes generalizing before name with
  | nil =>
      rw [List.forall₂_nil_left_iff]
      exact eq_comm.trans List.map_eq_nil_iff
  | cons c codes ih =>
      constructor
      · intro h
        have hplain (d : Code) (hd : d ∈ lowerCode before c codes) :
            ∃ e, IsPlainLetter e ∧ Code.char e = d := by
          have hall : d ∈ lowerCodes before (c :: codes) := List.mem_append_left _ hd
          rw [h] at hall
          obtain ⟨e, he, hed⟩ := List.mem_map.1 hall
          exact ⟨e, plain e he, hed⟩
        have hsmall : ∀ d ∈ lowerCode before c codes, d.IsAscii := by
          intro d hd
          obtain ⟨e, he, rfl⟩ := hplain d hd
          exact he.ascii
        have hkelvin : c ≠ .char (Char.ofNat 0x212a) := by
          rintro rfl
          obtain ⟨e, he, hek⟩ := hplain (.char 'k') (by simp [lowerCode_kelvin])
          exact he.other (Code.char.inj hek)
        have hascii : c.IsAscii := isAscii_of_lowerCode hsmall hkelvin
        cases c with
        | half n => exact absurd hascii not_false
        | char e =>
            rw [lowerCodes, lowerCode_of_ascii hascii] at h
            cases name with
            | nil => cases h
            | cons d name =>
                obtain ⟨hd, hname⟩ := List.forall_mem_cons.1 plain
                injection h with hfirst hrest
                refine .cons ⟨e, rfl, ?_⟩ ((ih hname).1 hrest)
                rw [Code.char.inj hfirst, hd.toLower_eq_self]
      · intro h
        obtain ⟨d, name, ⟨e, rfl, hed⟩, hrest, rfl⟩ := List.forall₂_cons_left_iff.1 h
        obtain ⟨hd, hname⟩ := List.forall_mem_cons.1 plain
        rw [hd.toLower_eq_self] at hed
        have hascii : e.toNat < 0x80 := ascii_of_toLower (hed ▸ hd.ascii)
        rw [lowerCodes, lowerCode_of_ascii hascii, hed, (ih hname).2 hrest]
        rfl

/-- A text is in lower case a name of plain letters exactly if it spells the name. -/
theorem lower_eq_iff_spells
    {w : Wide} {name : String}
    (plain : ∀ d ∈ name.toList, IsPlainLetter d) :
    w.lower = name ↔ w.Spells name := by
  rw [Wide.Spells, ← lowerCodes_eq_map_iff plain]
  exact ⟨congrArg Wide.codes, congrArg Wide.mk⟩

end Names

end Text
end CardCatalog
