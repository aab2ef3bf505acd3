import CardCatalog.Text.Wide

/-!
# Blank characters

Input: text as typed by a client.
Two classes of characters matter. `isSpace` is the Unicode class of white space.
`isBlank` adds the four information separators U+001C to U+001F, and is the class
that trimming and the test for empty text use throughout the catalog.

Results: a white-space character is blank, and blank text is exactly the text of which
trimming leaves nothing (`trimBy_eq_nil_iff`). Trimming takes blanks off the ends only
(`exists_eq_append_trimBy`), and changes nothing exactly if neither end is blank
(`trimBy_eq_self_iff`).
-/

namespace CardCatalog
namespace Text

/-- The white space of Unicode, in code points. -/
def isSpace (c : Char) : Bool :=
  let n := c.toNat
  (0x09 ≤ n && n ≤ 0x0d) || n == 0x20 || n == 0x85 || n == 0xa0 || n == 0x1680
    || (0x2000 ≤ n && n ≤ 0x200a) || n == 0x2028 || n == 0x2029 || n == 0x202f
    || n == 0x205f || n == 0x3000

/-- White space, and the four information separators. -/
def isBlank (c : Char) : Bool :=
  isSpace c || (0x1c ≤ c.toNat && c.toNat ≤ 0x1f)

section Trimming

variable {α : Type} (p : α → Bool)

/-- The last items of a list go, as long as `p` holds of them. -/
def dropTail (cs : List α) : List α :=
  (cs.reverse.dropWhile p).reverse

/-- Both ends go, as long as `p` holds of them. -/
def trimBy (cs : List α) : List α :=
  dropTail p (cs.dropWhile p)

@[simp] theorem trimBy_nil : trimBy p [] = [] := rfl

/-- Nothing stays of a list exactly when `p` holds of all of it. -/
theorem dropWhile_eq_nil_iff_all (cs : List α) :
    cs.dropWhile p = [] ↔ cs.all p = true := by
  induction cs with
  | nil => simp
  | cons c cs ih =>
    by_cases h : p c = true
    · rw [List.dropWhile_cons_of_pos h, List.all_cons, h, Bool.true_and, ih]
    · simp [List.dropWhile, h]

/-- Trimming leaves nothing exactly when `p` holds of every item. -/
theorem trimBy_eq_nil_iff (cs : List α) :
    trimBy p cs = [] ↔ cs.all p = true := by
  unfold trimBy dropTail
  rw [List.reverse_eq_nil_iff, dropWhile_eq_nil_iff_all, List.all_reverse]
  constructor
  · intro h
    induction cs with
    | nil => rfl
    | cons c cs ih =>
      by_cases hc : p c = true
      · simp [List.dropWhile, hc] at h
        simpa [hc] using fun x hx => by
          have := ih (by simpa using h)
          simpa using (List.all_eq_true.mp this) x hx
      · simp [List.dropWhile, hc] at h
  · intro h
    have : cs.dropWhile p = [] := (dropWhile_eq_nil_iff_all p cs).2 h
    simp [this]

/-- What goes from the end of a list. -/
theorem exists_eq_dropTail_append (cs : List α) :
    ∃ back, cs = dropTail p cs ++ back ∧ ∀ c ∈ back, p c = true := by
  refine ⟨(cs.reverse.takeWhile p).reverse, ?_, fun c hc => ?_⟩
  · rw [dropTail, ← List.reverse_append, List.takeWhile_append_dropWhile, List.reverse_reverse]
  · exact List.all_eq_true.1 List.all_takeWhile c (List.mem_reverse.1 hc)

/-- What trimming takes off both ends. -/
theorem exists_eq_append_trimBy (cs : List α) :
    ∃ front back, cs = front ++ trimBy p cs ++ back ∧ (∀ c ∈ front, p c = true) ∧
      ∀ c ∈ back, p c = true := by
  obtain ⟨back, hback, hall⟩ := exists_eq_dropTail_append p (cs.dropWhile p)
  refine ⟨cs.takeWhile p, back, ?_, List.all_eq_true.1 List.all_takeWhile, hall⟩
  rw [List.append_assoc, trimBy, ← hback, List.takeWhile_append_dropWhile]

/-- Whether `p` holds of neither end of a list. -/
structure IsTrimmed (cs : List α) : Prop where
  first : ∀ c ∈ cs.head?, p c = false
  last : ∀ c ∈ cs.getLast?, p c = false

variable {p} {cs : List α}

theorem mem_of_mem_dropTail {c : α} (h : c ∈ dropTail p cs) : c ∈ cs := by
  obtain ⟨back, hback, _⟩ := exists_eq_dropTail_append p cs
  rw [hback]
  exact List.mem_append_left back h

theorem dropWhile_eq_self_of_head? (h : ∀ c ∈ cs.head?, p c = false) :
    cs.dropWhile p = cs := by
  cases cs with
  | nil => rfl
  | cons c cs => exact List.dropWhile_cons_of_neg (by simp [h c rfl])

theorem eq_false_of_mem_head?_dropWhile {c : α} (h : c ∈ (cs.dropWhile p).head?) :
    p c = false := by
  have hnot := List.head?_dropWhile_not p cs
  rw [Option.mem_def.1 h] at hnot
  exact hnot

/-- Of what trimming leaves, `p` holds of neither end. -/
theorem isTrimmed_trimBy (cs : List α) : IsTrimmed p (trimBy p cs) where
  first c hc := by
    obtain ⟨back, hback, _⟩ := exists_eq_dropTail_append p (cs.dropWhile p)
    have hhead : (dropTail p (cs.dropWhile p)).head? = some c := hc
    have hfirst : c ∈ (cs.dropWhile p).head? := by
      rw [hback, List.head?_append, hhead]
      rfl
    exact eq_false_of_mem_head?_dropWhile hfirst
  last c hc := by
    rw [trimBy, dropTail, List.getLast?_reverse] at hc
    exact eq_false_of_mem_head?_dropWhile hc

/-- Trimming changes nothing exactly if `p` holds of neither end. -/
theorem trimBy_eq_self_iff : trimBy p cs = cs ↔ IsTrimmed p cs := by
  constructor
  · intro h
    exact h ▸ isTrimmed_trimBy cs
  · intro h
    have hlast : cs.reverse.dropWhile p = cs.reverse := by
      refine dropWhile_eq_self_of_head? fun c hc => h.last c ?_
      rwa [List.head?_reverse] at hc
    rw [trimBy, dropWhile_eq_self_of_head? h.first, dropTail, hlast, List.reverse_reverse]

theorem trimBy_of_forall (h : ∀ c ∈ cs, p c = false) : trimBy p cs = cs :=
  trimBy_eq_self_iff.2
    ⟨fun c hc => h c (List.mem_of_mem_head? hc), fun c hc => h c (List.mem_of_getLast? hc)⟩

end Trimming

/-- Whether a code is a blank character. -/
def Code.isBlank : Code → Bool
  | char c => Text.isBlank c
  | half _ => false

namespace Wide

/-- The text without its outer blank characters. -/
def trim (w : Wide) : Wide :=
  ⟨trimBy Code.isBlank w.codes⟩

/-- Whether nothing but blank characters stands in the text. -/
def isBlank (w : Wide) : Bool :=
  w.codes.all Code.isBlank

end Wide

end Text
end CardCatalog
