import CardCatalog.Text.Wide

/-!
# Parts of a text

A filter asks whether one text stands somewhere inside another, code by code and without
regard to any meaning of the characters. It reads a text up to its first NUL, and does not
tell U+FFFE and U+FFFF from the replacement character U+FFFD.

A part is looked for by a pattern, in which the characters that have a meaning in patterns
are marked.

Results: a list holds a part exactly if it is something, the part, and something
(`holdsPart_iff`).
-/

namespace CardCatalog
namespace Text

section Lists

variable {α : Type} [DecidableEq α]

/-- Whether the list starts with the part, or a later place of it does. -/
def holdsPart (part : List α) : List α → Bool
  | [] => part.isEmpty
  | c :: cs => part.isPrefixOf (c :: cs) || holdsPart part cs

/-- A list holds a part exactly if it is that part between two lists. -/
theorem holdsPart_iff (part : List α) :
    ∀ cs : List α, holdsPart part cs = true ↔ ∃ u v, cs = u ++ part ++ v
  | [] => by
    simp only [holdsPart, List.isEmpty_iff]
    constructor
    · intro h
      exact ⟨[], [], by simp [h]⟩
    · rintro ⟨u, v, h⟩
      have := congrArg List.length h
      simp only [List.length_nil, List.length_append] at this
      exact List.length_eq_zero_iff.mp (by omega)
  | c :: cs => by
    simp only [holdsPart, Bool.or_eq_true, List.isPrefixOf_iff_prefix, holdsPart_iff part cs]
    constructor
    · rintro (⟨v, h⟩ | ⟨u, v, h⟩)
      · exact ⟨[], v, by simpa using h.symm⟩
      · exact ⟨c :: u, v, by simp [h]⟩
    · rintro ⟨u, v, h⟩
      cases u with
      | nil => exact Or.inl ⟨v, by simpa using h.symm⟩
      | cons d u =>
        simp only [List.cons_append, List.cons.injEq] at h
        exact Or.inr ⟨u, v, h.2⟩

end Lists

/-- The code at which filters stop reading. -/
def nul : Code := .char '\x00'

/-- A code as filters take it. -/
def filterCode : Code → Code
  | .char c => .char (if c.toNat = 0xfffe ∨ c.toNat = 0xffff then '\ufffd' else c)
  | .half n => .half n

/-- The codes of a text that filters look at. -/
def filterCodes (w : Wide) : List Code :=
  (w.codes.takeWhile (· ≠ nul)).map filterCode

/-- Whether a text holds another one as a part. A part that is cut short by a NUL has to
stand at the end of the text. -/
def hasPart (s : String) (part : Wide) : Bool :=
  if part.codes.contains nul then (filterCodes part).isSuffixOf (filterCodes s)
  else holdsPart (filterCodes part) (filterCodes s)

/-- The mark in front of a character of a pattern that stands for itself. -/
def patternMark : Code := .char '/'

/-- The pattern of all texts that hold a part, between its two ends. -/
def partPattern (part : Wide) : Wide :=
  let hasMeaning (c : Code) : Bool :=
    c = patternMark || c = .char '%' || c = .char '_'
  ⟨part.codes.flatMap fun c => if hasMeaning c then [patternMark, c] else [c]⟩

end Text
end CardCatalog
