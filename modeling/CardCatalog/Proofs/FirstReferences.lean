import CardCatalog.Record
import Mathlib.Data.List.Forall2

/-!
# First references

Of references to the same row, the first one is kept, with its mark.  Each kept reference stands at
a place of the list before which no reference to its row stands, and the places come in order; so
what is kept of a list never depends on what follows it.

Results: where first elements stand (`exists_places_freshBy`), and what is kept of references, alone
and with others behind them (`uniqueRefs_first`).
-/

namespace CardCatalog

section Places

variable {α κ : Type} {mark : α → κ}

/-- Whether an element stands at a place, and no element before it has its mark. -/
structure StandsFirst (mark : α → κ) (xs : List α) (i : Nat) (x : α) : Prop where
  place : xs[i]? = some x
  first : ∀ j < i, ∀ y ∈ xs[j]?, mark y ≠ mark x

/-- One more element in front, of another mark, moves the place by one. -/
theorem StandsFirst.cons
    {xs : List α} {i : Nat} {x y : α}
    (h : StandsFirst mark xs i x) (other : mark y ≠ mark x) :
    StandsFirst mark (y :: xs) (i + 1) x where
  place := by
    rw [List.getElem?_cons_succ]
    exact h.place
  first j hj z hz := by
    cases j with
    | zero =>
        cases hz
        exact other
    | succ j =>
        rw [List.getElem?_cons_succ] at hz
        exact h.first j (Nat.lt_of_succ_lt_succ hj) z hz

theorem forall₂_standsFirst_cons
    {xs kept : List α} {places : List Nat} {y : α}
    (h : List.Forall₂ (StandsFirst mark xs) places kept)
    (other : ∀ x ∈ kept, mark y ≠ mark x) :
    List.Forall₂ (StandsFirst mark (y :: xs)) (places.map (· + 1)) kept := by
  induction h with
  | nil => exact .nil
  | cons hx _ ih =>
      obtain ⟨hother, hrest⟩ := List.forall_mem_cons.1 other
      exact .cons (hx.cons hother) (ih hrest)

/-- What is kept stands at increasing places, each of them the first one of its mark. -/
theorem exists_places_freshBy
    [DecidableEq κ] (mark : α → κ) (xs : List α) (known : List κ) :
    ∃ places : List Nat, places.Pairwise (· < ·) ∧
      List.Forall₂ (StandsFirst mark xs) places (freshBy mark known xs) := by
  induction xs generalizing known with
  | nil => exact ⟨[], .nil, .nil⟩
  | cons y xs ih =>
      by_cases hy : mark y ∈ known
      · rw [freshBy_cons_of_mem mark xs hy]
        obtain ⟨places, hincreasing, hstand⟩ := ih known
        refine ⟨places.map (· + 1), hincreasing.map _ fun _ _ => Nat.succ_lt_succ, ?_⟩
        refine forall₂_standsFirst_cons hstand fun x hx e => ?_
        exact mark_notMem_of_mem_freshBy mark xs known hx (e ▸ hy)
      · rw [freshBy_cons_of_notMem mark xs hy]
        obtain ⟨places, hincreasing, hstand⟩ := ih (mark y :: known)
        have hfirst : StandsFirst mark (y :: xs) 0 y :=
          ⟨rfl, fun j hj => absurd hj (Nat.not_lt_zero j)⟩
        refine ⟨0 :: places.map (· + 1), ?_, .cons hfirst ?_⟩
        · refine .cons (fun i hi => ?_) (hincreasing.map _ fun _ _ => Nat.succ_lt_succ)
          obtain ⟨j, _, rfl⟩ := List.mem_map.1 hi
          exact Nat.succ_pos j
        · refine forall₂_standsFirst_cons hstand fun x hx e => ?_
          exact mark_notMem_of_mem_freshBy mark xs _ hx (e ▸ List.mem_cons_self)

end Places

/-- Of a list of references, those are kept that are the first ones to their rows, in order: no two
go to one row, every row is kept, and before a kept reference, which stands where it stood, none
goes to its row.  Of two lists together, what is kept of the first one stays, followed by what is
kept of the second one but for the rows of the first; so what is kept is kept again. -/
theorem uniqueRefs_first (a b : List AttachedRef) :
    ((uniqueRefs a).Pairwise fun r s => r.id ≠ s.id) ∧
      (∀ id, id ∈ (uniqueRefs a).map AttachedRef.id ↔ id ∈ a.map AttachedRef.id) ∧
      (uniqueRefs a).Sublist a ∧
      (∃ places : List Nat, places.Pairwise (· < ·) ∧
        List.Forall₂ (StandsFirst AttachedRef.id a) places (uniqueRefs a)) ∧
      uniqueRefs (a ++ b)
        = uniqueRefs a ++ (uniqueRefs b).filter (fun r => r.id ∉ a.map AttachedRef.id) ∧
      uniqueRefs (uniqueRefs a) = uniqueRefs a := by
  refine ⟨pairwise_uniqueRefs a, fun id => ?_, freshBy_sublist AttachedRef.id a [],
    exists_places_freshBy AttachedRef.id a [], firstBy_append AttachedRef.id a b,
    firstBy_firstBy AttachedRef.id a⟩
  have hall := mem_or_mem_map_freshBy_iff AttachedRef.id a [] (m := id)
  simp only [List.not_mem_nil, false_or] at hall
  exact hall

/-- The first reference to a row gives its mark. -/
example :
    uniqueRefs [⟨2, true⟩, ⟨1, false⟩, ⟨2, false⟩, ⟨1, true⟩, ⟨3, false⟩]
      = [⟨2, true⟩, ⟨1, false⟩, ⟨3, false⟩] := by
  decide

end CardCatalog
