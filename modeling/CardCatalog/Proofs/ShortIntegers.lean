import CardCatalog.Json.Reader
import CardCatalog.Proofs.ObjectFields
import CardCatalog.Proofs.QueryFields
import CardCatalog.Proofs.ValidForms

/-!
# Short integers

An integer is read from no more than `Number.longestInteger` digits, in a text as well as in JSON.
So it is written with no more, and can be read back.

Results: the integers in a JSON object are short (`areShort_of_read`), those that are taken for
such an integer, or for a text, are, too (`isShort_of_integer`), and a short integer that is not
negative is read back (`integer_toString_of_isShort`).
-/

namespace CardCatalog
namespace Number

/-- Whether an integer has no more digits than one that is read. -/
def IsShort (n : Int) : Prop :=
  n.natAbs < 10 ^ longestInteger

section Digits

theorem foldl_digits_lt
    {ds : List Nat} {n : Nat}
    (digits : ∀ d ∈ ds, d < 10) :
    ds.foldl (fun n d => 10 * n + d) n < (n + 1) * 10 ^ ds.length := by
  induction ds generalizing n with
  | nil => simp
  | cons d ds ih =>
      obtain ⟨hd, hds⟩ := List.forall_mem_cons.1 digits
      calc ds.foldl (fun n d => 10 * n + d) (10 * n + d)
          < (10 * n + d + 1) * 10 ^ ds.length := ih hds
        _ ≤ (10 * (n + 1)) * 10 ^ ds.length := Nat.mul_le_mul_right _ (by omega)
        _ = (n + 1) * 10 ^ (d :: ds).length := by
            rw [List.length_cons, Nat.pow_succ', Nat.mul_comm 10, Nat.mul_assoc]

/-- Digits spell a number that has no more of them. -/
theorem ofDigits_lt
    {ds : List Nat}
    (digits : ∀ d ∈ ds, d < 10) :
    ofDigits ds < 10 ^ ds.length := by
  have hlt := foldl_digits_lt (n := 0) digits
  rwa [Nat.zero_add, Nat.one_mul] at hlt

theorem isShort_ofDigits
    {ds : List Nat} (negative : Bool)
    (digits : ∀ d ∈ ds, d < 10) (short : ds.length ≤ longestInteger) :
    IsShort (if negative then -(ofDigits ds : Int) else ofDigits ds) := by
  have hlt : ofDigits ds < 10 ^ longestInteger :=
    (ofDigits_lt digits).trans_le (Nat.pow_le_pow_right (by decide) short)
  unfold IsShort
  cases negative
  · rwa [if_neg Bool.false_ne_true, Int.natAbs_natCast]
  · rwa [if_pos rfl, Int.natAbs_neg, Int.natAbs_natCast]

theorem lt_of_asciiDigit?
    {c : Char} {d : Nat}
    (h : Text.asciiDigit? c = some d) :
    d < 10 := by
  unfold Text.asciiDigit? at h
  split at h
  · rename_i hdigit
    have hle : c.toNat ≤ '9'.toNat := hdigit.2
    have hnine : '9'.toNat = 57 := rfl
    cases h
    omega
  · cases h

end Digits

/-- What a text in plain form spells is short. -/
theorem isShort_of_integerOfPlain
    {cs : List Char} {n : Int}
    (h : integerOfPlain cs = .ok n) :
    IsShort n := by
  unfold integerOfPlain at h
  split at h
  rename_i negative ds _
  dsimp only at h
  split at h
  · cases h
  split at h
  · cases h
  · rename_i hlong
    split at h
    · cases h
    · cases h
      refine isShort_ofDigits negative (fun d hd => ?_) ?_
      · obtain ⟨c, _, hc⟩ := List.mem_filterMap.1 hd
        exact lt_of_asciiDigit? hc
      · exact (List.length_filterMap_le _ _).trans (Nat.not_lt.1 hlong)

/-- What a loose text spells is short. -/
theorem isShort_of_integerOfText
    {s : String} {n : Int}
    (h : integerOfText s = .ok n) :
    IsShort n := by
  unfold integerOfText at h
  split at h
  · rename_i hplain
    cases h
    exact isShort_of_integerOfPlain hplain
  · cases h
  · split at h
    · rename_i hmade
      cases h
      obtain ⟨cs, _, hplain⟩ := Option.map_eq_some_iff.1 hmade
      exact isShort_of_integerOfPlain hplain
    · cases h

/-- A short integer that is not negative is read back. -/
theorem integerOfText_toString_of_isShort
    {n : Nat}
    (short : IsShort n) :
    integerOfText (toString (n : Int)) = .ok (n : Int) := by
  have hlength : (Nat.toDigits 10 n).length ≤ longestInteger :=
    (Nat.length_toDigits_le_iff (by decide) (by decide)).2 short
  unfold integerOfText
  rw [toList_toString, integerOfPlain_toDigits hlength]

end Number

namespace Json

open Number (IsShort)
open Text (Code Wide)

section Reading

theorem lt_of_mem_digitRun
    {cs : List Code} {d : Nat}
    (h : d ∈ (digitRun cs).1) :
    d < 10 := by
  obtain ⟨c, _, hc⟩ := List.mem_filterMap.1 h
  obtain ⟨c', _, hdigit⟩ := Option.bind_eq_some_iff.1 hc
  exact Number.lt_of_asciiDigit? hdigit

/-- Whether the fields of an object that are integers are short. -/
def AreShort (fields : List (Wide × Json)) : Prop :=
  ∀ f ∈ fields, ∀ n, f.2 = .int n → IsShort n

/-- Whether a value is short, if it is an integer, or has short fields, if it is an object. -/
def HasShort : Json → Prop
  | .int n => IsShort n
  | .object fields => AreShort fields
  | _ => True

theorem hasShort_of_number
    {negative : Bool} {cs rest : List Code} {j : Json}
    (h : number negative cs = .ok (j, rest)) :
    HasShort j := by
  unfold number at h
  split at h
  rename_i whole rest' hwhole
  have hdigits : ∀ d ∈ whole, d < 10 := by
    split at hwhole
    · cases hwhole
      simp
    · intro d hd
      have hrun : whole = (digitRun cs).1 := by rw [hwhole]
      exact lt_of_mem_digitRun (hrun ▸ hd)
  dsimp only at h
  split at h
  · cases h
  -- without a fraction and an exponent, the digits are those of an integer
  split at h
  · split at h
    · cases h
    · rename_i hshort
      cases h
      exact Number.isShort_ofDigits negative hdigits (Nat.not_lt.1 hshort)
  · cases h
    trivial

theorem hasShort_of_mem_words : ∀ w ∈ words, HasShort w.2 := by
  simp [words, HasShort]

theorem hasShort_of_scalar
    {cs rest : List Code} {j : Json}
    (h : scalar cs = .ok (j, rest)) :
    HasShort j := by
  unfold scalar at h
  split at h
  · rename_i w hword
    cases h
    exact hasShort_of_mem_words w (List.mem_of_find?_eq_some hword)
  · split at h
    · split at h
      · cases h
        trivial
      · cases h
    · exact hasShort_of_number h
    · exact hasShort_of_number h

theorem areShort_nil : AreShort [] := fun _ hf => by cases hf

theorem areShort_put
    {fields : List (Wide × Json)} {j : Json} (name : Wide)
    (hfields : AreShort fields) (hj : HasShort j) :
    AreShort (put fields name j) := by
  intro f hf n hn
  rcases mem_of_mem_put hf with hold | rfl
  · exact hfields f hold n hn
  · cases hn
    exact hj

/-- What is read has short integers.  A value and the members of an object are told together, as
each is read by the other. -/
theorem hasShort_of_reading
    (fuel : Nat) :
    (∀ levels cs j rest, value fuel levels cs = .ok (j, rest) → HasShort j) ∧
      ∀ levels fields cs found rest, AreShort fields →
        members fuel levels fields cs = .ok (found, rest) → AreShort found := by
  induction fuel with
  | zero =>
      refine ⟨fun levels cs j rest h => ?_, fun levels fields cs found rest _ h => ?_⟩
      · rw [value] at h
        cases h
      · rw [members] at h
        cases h
  | succ fuel ih =>
      obtain ⟨ihValue, ihMembers⟩ := ih
      refine ⟨fun levels cs j rest h => ?_, fun levels fields cs found rest hfields h => ?_⟩
      · unfold value at h
        split at h
        · obtain ⟨_, _, h⟩ := bind_eq_ok_iff.1 h
          split at h
          · cases h
            trivial
          · obtain ⟨_, _, h⟩ := bind_eq_ok_iff.1 h
            cases h
            trivial
        · obtain ⟨levels, _, h⟩ := bind_eq_ok_iff.1 h
          split at h
          · cases h
            exact areShort_nil
          · obtain ⟨_, hmembers, h⟩ := bind_eq_ok_iff.1 h
            cases h
            exact ihMembers _ _ _ _ _ areShort_nil hmembers
        · exact hasShort_of_scalar h
      · unfold members at h
        split at h
        · split at h
          · cases h
          · split at h
            · obtain ⟨⟨j, rest₁⟩, hj, h⟩ := bind_eq_ok_iff.1 h
              have hshort := ihValue _ _ _ _ hj
              dsimp only at h
              split at h
              · cases h
                exact areShort_put _ hfields hshort
              · exact ihMembers _ _ _ _ _ (areShort_put _ hfields hshort) h
              · cases h
            · cases h
        · cases h

theorem areShort_of_read
    {w : Wide} {deepest : Nat} {fields : List (Wide × Json)}
    (h : Json.read w deepest = .ok (.object fields)) :
    AreShort fields := by
  obtain ⟨⟨j, rest⟩, hvalue, h⟩ := bind_eq_ok_iff.1 h
  have hj : j = .object fields := by
    dsimp only at h
    split at h <;> cases h
    rfl
  subst hj
  exact (hasShort_of_reading _).1 _ _ _ _ hvalue

end Reading

end Json

namespace Validation

open Number (IsShort)

theorem isShort_of_lt
    {n : Int}
    (h : n.natAbs < 0x8000000000000000) :
    IsShort n := by
  have hword : 0x8000000000000000 ≤ 10 ^ 19 := by decide
  have hlong : 10 ^ 19 ≤ 10 ^ Number.longestInteger := Nat.pow_le_pow_right (by decide) (by decide)
  exact h.trans_le (hword.trans hlong)

/-- A whole number that is taken for a value is short, if the value is. -/
theorem isShort_of_integer
    {place : List Step} {j : Json} {n : Int}
    (short : ∀ m, j = .int m → IsShort m)
    (h : Rule.integer place j = .valid n) :
    IsShort n := by
  unfold Rule.integer at h
  split at h
  · cases h
    split <;> exact isShort_of_lt (by decide)
  · cases h
    exact short _ rfl
  · split at h
    · split at h
      · split at h
        · rename_i hlt
          cases h
          exact isShort_of_lt hlt
        · cases h
      · cases h
    · cases h
  · unfold Rule.ofText at h
    split at h
    · dsimp only at h
      split at h
      · rename_i hread
        cases h
        exact Number.isShort_of_integerOfText hread
      · cases h
      · cases h
    · cases h
  · cases h

theorem isShort_of_atLeast
    {place : List Step} {j : Json} {least : Int} {n : { n : Int // least ≤ n }}
    (short : ∀ m, j = .int m → IsShort m)
    (h : Rule.atLeast least place j = .valid n) :
    IsShort n.val := by
  unfold Rule.atLeast Checked.andThen at h
  split at h
  · rename_i m hm
    dsimp only at h
    split at h
    · cases h
      exact isShort_of_integer short hm
    · cases h
  · cases h

/-- A short integer that is not negative is written as itself. -/
theorem integer_toString_of_isShort
    (place : List Step) {n : Nat}
    (short : IsShort n) :
    Rule.integer place (.text (toString (n : Int))) = .valid (n : Int) := by
  unfold Rule.integer
  dsimp only
  rw [Rule.ofText, Text.Wide.text?_ofText]
  dsimp only
  rw [Number.integerOfText_toString_of_isShort short]

end Validation
end CardCatalog
