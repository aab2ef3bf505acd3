/-!
# Wide text

Input: text that was counted in sixteen-bit units, as the strings of JSON are.
In such units a character beyond U+FFFF is a pair of surrogates, and nothing keeps half of
a pair from standing alone. Wide text is a list of codes, each a character or such a half.

Results: text is wide text without halves (`text?_eq_some_iff`).
-/

namespace CardCatalog
namespace Text

/-- One code of a wide text: a character, or half of a surrogate pair by its distance from
U+D800. -/
inductive Code where
  | char (c : Char)
  | half (n : Fin 0x800)
  deriving DecidableEq, Repr

namespace Code

/-- The number of a code. -/
def toNat : Code → Nat
  | char c => c.toNat
  | half n => 0xd800 + n

/-- The character that a code is, if it is one. -/
def char? : Code → Option Char
  | char c => some c
  | half _ => none

/-- The code of a number, which has to lie within the range of Unicode. -/
def ofNat? (n : Nat) : Option Code :=
  if h : 0xd800 ≤ n ∧ n < 0xe000 then some (half ⟨n - 0xd800, by omega⟩)
  else if n < 0x110000 then some (char (Char.ofNat n))
  else none

end Code

/-- Text in which halves of surrogate pairs may stand alone. -/
structure Wide where
  codes : List Code
  deriving DecidableEq, Repr

namespace Wide

/-- Text as wide text. -/
def ofText (s : String) : Wide :=
  ⟨s.toList.map Code.char⟩

instance : Coe String Wide := ⟨ofText⟩

instance : Inhabited Wide := ⟨⟨[]⟩⟩

instance : Append Wide := ⟨fun a b => ⟨a.codes ++ b.codes⟩⟩

/-- The text that wide text without halves is. -/
def text? (w : Wide) : Option String :=
  (w.codes.mapM Code.char?).map String.ofList

/-- Whether wide text starts with a text. -/
def startsWith (w : Wide) (s : String) : Bool :=
  (ofText s).codes.isPrefixOf w.codes

/-- Codes that are all characters are those of a list of characters. -/
theorem mapM_char?_eq_some_iff {codes : List Code} {cs : List Char} :
    codes.mapM Code.char? = some cs ↔ codes = cs.map Code.char := by
  induction codes generalizing cs with
  | nil => cases cs <;> simp
  | cons c codes ih =>
    cases c with
    | half n => cases cs <;> simp [Code.char?]
    | char c =>
      cases cs with
      | nil => simp [Code.char?, Option.bind_eq_some_iff]
      | cons d cs =>
        simp [Code.char?, Option.bind_eq_some_iff, ih]
        exact and_comm

/-- Wide text is text exactly if it comes from it. -/
theorem text?_eq_some_iff {w : Wide} {s : String} : w.text? = some s ↔ w = ofText s := by
  rcases w with ⟨codes⟩
  simp only [text?, ofText, Option.map_eq_some_iff, mapM_char?_eq_some_iff, mk.injEq]
  constructor
  · rintro ⟨cs, rfl, rfl⟩
    simp
  · intro h
    exact ⟨s.toList, h, by simp⟩

/-- Text is found again in its wide form. -/
@[simp] theorem text?_ofText (s : String) : (ofText s).text? = some s :=
  text?_eq_some_iff.2 rfl

theorem ofText_inj {s t : String} : ofText s = ofText t ↔ s = t := by
  refine ⟨fun h => ?_, congrArg ofText⟩
  have hs := text?_ofText s
  rw [h, text?_ofText] at hs
  exact (Option.some.inj hs).symm

end Wide

section Units

/-- A part of a text in the making: a sixteen-bit unit, or a code that is finished. -/
inductive Part where
  | unit (n : Nat)
  | code (c : Code)

/-- The character that a high and a low half make together. -/
def joined? (high low : Nat) : Option Char :=
  if (0xd800 ≤ high ∧ high < 0xdc00) ∧ 0xdc00 ≤ low ∧ low < 0xe000 then
    some (Char.ofNat (0x10000 + (high - 0xd800) * 0x400 + (low - 0xdc00)))
  else none

/-- The codes of parts: a high half and a low half right behind it are one character, and
every other unit is a code of its own. -/
def joinParts : List Part → List Code
  | [] => []
  | .code c :: ps => c :: joinParts ps
  | [.unit n] => (Code.ofNat? n).toList
  | .unit n :: .code c :: ps => (Code.ofNat? n).toList ++ c :: joinParts ps
  | .unit n :: .unit m :: ps =>
    match joined? n m with
    | some c => .char c :: joinParts ps
    | none => (Code.ofNat? n).toList ++ joinParts (.unit m :: ps)

end Units

end Text
end CardCatalog
