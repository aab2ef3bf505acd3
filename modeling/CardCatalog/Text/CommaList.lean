import CardCatalog.Text.Blank

/-!
# Comma-separated text

Algorithm: the text is cut at every comma, each piece is trimmed, and pieces of which
nothing is left are dropped. A list that is already cut goes through the same two
last steps, so reading it back changes nothing.
-/

namespace CardCatalog
namespace Text

/-- The pieces between the occurrences of a separator, at least one. -/
def pieces {α : Type} [DecidableEq α] (separator : α) : List α → List (List α)
  | [] => [[]]
  | c :: cs =>
    if c = separator then [] :: pieces separator cs
    else
      match pieces separator cs with
      | [] => [[c]]
      | p :: ps => (c :: p) :: ps

section Pieces

variable {α : Type} [DecidableEq α]

/-- The pieces of a list are what it splits into. -/
theorem pieces_eq_splitOn (separator : α) (cs : List α) :
    pieces separator cs = cs.splitOn separator := by
  induction cs with
  | nil => rfl
  | cons c cs ih =>
    rw [List.splitOn_cons_eq_if_modifyHead, pieces, ih]
    obtain ⟨p, ps, hsplit⟩ := List.exists_cons_of_ne_nil (List.splitOn_ne_nil separator cs)
    simp only [beq_iff_eq, hsplit, List.modifyHead_cons]

/-- What is joined by a separator has the pieces of both sides. -/
theorem pieces_append (separator : α) (cs ds : List α) :
    pieces separator (cs ++ separator :: ds) = pieces separator cs ++ pieces separator ds := by
  simp only [pieces_eq_splitOn, List.splitOn_append_cons_self]

theorem pieces_of_notMem {separator : α} {cs : List α} (h : separator ∉ cs) :
    pieces separator cs = [cs] := by
  rw [pieces_eq_splitOn, List.splitOn_eq_singleton h]

/-- Cutting undoes joining, if the separator stands in no piece. -/
theorem pieces_intercalate {separator : α} {ps : List (List α)} (hne : ps ≠ [])
    (h : ∀ p ∈ ps, separator ∉ p) : pieces separator ([separator].intercalate ps) = ps := by
  rw [pieces_eq_splitOn, List.splitOn_intercalate separator h hne]

/-- The separator stands in no piece. -/
theorem notMem_of_mem_pieces {separator : α} {cs p : List α} (h : p ∈ pieces separator cs) :
    separator ∉ p := by
  induction cs generalizing p with
  | nil =>
    rw [List.mem_singleton.1 h]
    exact List.not_mem_nil
  | cons c cs ih =>
    unfold pieces at h
    split at h
    · rcases List.mem_cons.1 h with rfl | h
      · exact List.not_mem_nil
      · exact ih h
    · rename_i hc
      split at h
      · rw [List.mem_singleton.1 h, List.mem_singleton]
        exact Ne.symm hc
      · rename_i q qs hpieces
        rw [hpieces] at ih
        rcases List.mem_cons.1 h with rfl | h
        · rw [List.mem_cons, not_or]
          exact ⟨Ne.symm hc, ih List.mem_cons_self⟩
        · exact ih (List.mem_cons_of_mem q h)

end Pieces

/-- Trimmed pieces, the blank ones left out. -/
def tidy (ps : List (List Code)) : List (List Code) :=
  (ps.map (trimBy Code.isBlank)).filter (!·.isEmpty)

/-- The non-blank entries of a comma-separated text. -/
def commaList (w : Wide) : List Wide :=
  (tidy (pieces (.char ',') w.codes)).map Wide.mk

/-- The same for a text that is already cut into entries. -/
def tidyList (ws : List Wide) : List Wide :=
  (tidy (ws.map Wide.codes)).map Wide.mk

end Text
end CardCatalog
