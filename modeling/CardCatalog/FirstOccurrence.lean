/-!
# First occurrences

Elements of a list may carry equal marks. `freshBy` keeps the first element of every mark
and leaves out the elements whose mark is known beforehand.

Results: the marks that are kept are not known and do not repeat, and every mark of the
list is known or kept. What is kept stays in its order (`freshBy_sublist`), and it does not
depend on what the marks are, as long as the same ones are equal (`freshBy_map`). It is the
first element of each mark that is not known (`isFirsts_freshBy`), and a list can be taken in
two parts (`freshBy_append`, `firstBy_append`).
-/

namespace CardCatalog

section

variable {α κ : Type} [DecidableEq κ]

/-- The first element of each mark that is not among the known ones. -/
def freshBy (mark : α → κ) (known : List κ) : List α → List α
  | [] => []
  | a :: rest =>
    if mark a ∈ known then freshBy mark known rest
    else a :: freshBy mark (mark a :: known) rest

/-- The first element of each mark. -/
def firstBy (mark : α → κ) (xs : List α) : List α :=
  freshBy mark [] xs

@[simp] theorem freshBy_nil (mark : α → κ) (known : List κ) :
    freshBy mark known [] = [] := rfl

/-- No kept mark is known. -/
theorem mark_notMem_of_mem_freshBy (mark : α → κ) :
    ∀ (xs : List α) (known : List κ) {a : α}, a ∈ freshBy mark known xs →
      mark a ∉ known
  | [], _, _, h => by simp at h
  | x :: xs, known, a, h => by
    unfold freshBy at h
    split at h
    · exact mark_notMem_of_mem_freshBy mark xs known h
    · rcases List.mem_cons.mp h with rfl | h
      · assumption
      · have := mark_notMem_of_mem_freshBy mark xs (mark x :: known) h
        exact fun hk => this (List.mem_cons_of_mem _ hk)

/-- No two kept marks are equal. -/
theorem pairwise_freshBy (mark : α → κ) :
    ∀ (xs : List α) (known : List κ),
      (freshBy mark known xs).Pairwise fun a b => mark a ≠ mark b
  | [], _ => List.Pairwise.nil
  | x :: xs, known => by
    unfold freshBy
    split
    · exact pairwise_freshBy mark xs known
    · refine List.Pairwise.cons ?_ (pairwise_freshBy mark xs _)
      intro b hb e
      have := mark_notMem_of_mem_freshBy mark xs (mark x :: known) hb
      exact this (by simp [e])

/-- Every mark of the list is known or kept. -/
theorem mark_mem_or_mem_freshBy (mark : α → κ) :
    ∀ (xs : List α) (known : List κ) {a : α}, a ∈ xs →
      mark a ∈ known ∨ mark a ∈ (freshBy mark known xs).map mark
  | x :: xs, known, a, h => by
    unfold freshBy
    rcases List.mem_cons.mp h with rfl | h
    · split
      · exact Or.inl (by assumption)
      · exact Or.inr (by simp)
    · split
      · exact mark_mem_or_mem_freshBy mark xs known h
      · rcases mark_mem_or_mem_freshBy mark xs (mark x :: known) h with hk | hk
        · rcases List.mem_cons.mp hk with e | hk
          · exact Or.inr (by simp [e])
          · exact Or.inl hk
        · exact Or.inr (List.mem_cons_of_mem _ hk)

/-- Nothing is kept exactly if all marks are known. -/
theorem freshBy_eq_nil_iff (mark : α → κ) :
    ∀ (xs : List α) (known : List κ),
      freshBy mark known xs = [] ↔ ∀ x ∈ xs, mark x ∈ known
  | [], _ => by simp
  | x :: xs, known => by
    unfold freshBy
    split
    · rename_i hx
      simp [hx, freshBy_eq_nil_iff mark xs known]
    · rename_i hx
      simp [hx]

/-- Everything is kept if no mark is known and none repeats. -/
theorem freshBy_eq_self (mark : α → κ) :
    ∀ {xs : List α} {known : List κ}, (∀ x ∈ xs, mark x ∉ known) →
      (xs.Pairwise fun a b => mark a ≠ mark b) → freshBy mark known xs = xs
  | [], _, _, _ => rfl
  | x :: xs, known, hknown, hdistinct => by
    rw [List.pairwise_cons] at hdistinct
    have hrest : ∀ y ∈ xs, mark y ∉ mark x :: known := by
      intro y hy hmem
      rcases List.mem_cons.mp hmem with e | hmem
      · exact hdistinct.1 y hy e.symm
      · exact hknown y (List.mem_cons_of_mem x hy) hmem
    unfold freshBy
    rw [if_neg (hknown x (by simp)), freshBy_eq_self mark hrest hdistinct.2]

/-- What is kept stands in the list, in the same order. -/
theorem freshBy_sublist (mark : α → κ) :
    ∀ (xs : List α) (known : List κ), (freshBy mark known xs).Sublist xs
  | [], _ => List.Sublist.refl []
  | x :: xs, known => by
    unfold freshBy
    split
    · exact (freshBy_sublist mark xs known).cons x
    · exact (freshBy_sublist mark xs _).cons_cons x

/-- With what is kept, the marks of the whole list are known. -/
theorem mem_or_mem_map_freshBy_iff (mark : α → κ) (xs : List α) (known : List κ) {m : κ} :
    m ∈ known ∨ m ∈ (freshBy mark known xs).map mark ↔ m ∈ known ∨ m ∈ xs.map mark := by
  constructor
  · rintro (hm | hm)
    · exact Or.inl hm
    · obtain ⟨a, ha, rfl⟩ := List.mem_map.1 hm
      exact Or.inr (List.mem_map_of_mem ((freshBy_sublist mark xs known).subset ha))
  · rintro (hm | hm)
    · exact Or.inl hm
    · obtain ⟨a, ha, rfl⟩ := List.mem_map.1 hm
      exact mark_mem_or_mem_freshBy mark xs known ha

/-- The same elements are kept under other marks, if equal marks stay equal and distinct
ones distinct. -/
theorem freshBy_map {β ι : Type} [DecidableEq ι] (f : α → β) (mark : α → κ) (mark' : β → ι) :
    ∀ (xs : List α) (known : List κ) (known' : List ι),
      (∀ x ∈ xs, mark' (f x) ∈ known' ↔ mark x ∈ known) →
      (∀ x ∈ xs, ∀ y ∈ xs, mark' (f x) = mark' (f y) ↔ mark x = mark y) →
      freshBy mark' known' (xs.map f) = (freshBy mark known xs).map f
  | [], _, _, _, _ => rfl
  | x :: xs, known, known', hknown, hmark => by
    have hrest : ∀ y ∈ xs, ∀ z ∈ xs, mark' (f y) = mark' (f z) ↔ mark y = mark z :=
      fun y hy z hz => hmark y (List.mem_cons_of_mem x hy) z (List.mem_cons_of_mem x hz)
    rw [List.map_cons]
    unfold freshBy
    by_cases hx : mark x ∈ known
    · rw [if_pos hx, if_pos ((hknown x (by simp)).2 hx)]
      exact freshBy_map f mark mark' xs known known'
        (fun y hy => hknown y (List.mem_cons_of_mem x hy)) hrest
    · rw [if_neg hx, if_neg fun h => hx ((hknown x (by simp)).1 h), List.map_cons]
      congr 1
      refine freshBy_map f mark mark' xs _ _ (fun y hy => ?_) hrest
      rw [List.mem_cons, List.mem_cons, hknown y (List.mem_cons_of_mem x hy),
        hmark y (List.mem_cons_of_mem x hy) x (by simp)]

/-- Of the known marks, neither the order matters nor whether they repeat. -/
theorem freshBy_congr (mark : α → κ) (xs : List α) {known known' : List κ}
    (h : ∀ m, m ∈ known' ↔ m ∈ known) :
    freshBy mark known' xs = freshBy mark known xs := by
  have hmap := freshBy_map (fun x => x) mark mark xs known known' (fun x _ => h (mark x))
    (fun _ _ _ _ => Iff.rfl)
  simpa using hmap

/-- An element with a known mark is left out. -/
theorem freshBy_cons_of_mem (mark : α → κ) {known : List κ} {x : α} (xs : List α)
    (h : mark x ∈ known) :
    freshBy mark known (x :: xs) = freshBy mark known xs :=
  if_pos h

/-- An element with a new mark is kept, and its mark is known from there on. -/
theorem freshBy_cons_of_notMem (mark : α → κ) {known : List κ} {x : α} (xs : List α)
    (h : mark x ∉ known) :
    freshBy mark known (x :: xs) = x :: freshBy mark (mark x :: known) xs :=
  if_neg h

/-- Of two lists together, the marks that the first one keeps are known to the second one. -/
theorem freshBy_append (mark : α → κ) (ys : List α) :
    ∀ (xs : List α) (known : List κ),
      freshBy mark known (xs ++ ys)
        = freshBy mark known xs
          ++ freshBy mark (known ++ (freshBy mark known xs).map mark) ys
  | [], known => by simp
  | x :: xs, known => by
    rw [List.cons_append]
    by_cases hx : mark x ∈ known
    · rw [freshBy_cons_of_mem mark _ hx, freshBy_cons_of_mem mark _ hx,
        freshBy_append mark ys xs known]
    · rw [freshBy_cons_of_notMem mark _ hx, freshBy_cons_of_notMem mark _ hx,
        freshBy_append mark ys xs, List.cons_append, List.map_cons]
      congr 2
      -- the mark of the first element is known at another place
      refine freshBy_congr mark ys fun m => ?_
      simp only [List.mem_append, List.mem_cons]
      exact or_left_comm

/-- More marks may as well be known afterwards: the elements with such marks are left out of what
is kept. -/
theorem freshBy_known_append (mark : α → κ) (more : List κ) :
    ∀ (xs : List α) (known : List κ),
      freshBy mark (more ++ known) xs = (freshBy mark known xs).filter fun x => mark x ∉ more
  | [], _ => rfl
  | x :: xs, known => by
    have hswap (m : κ) : m ∈ mark x :: (more ++ known) ↔ m ∈ more ++ mark x :: known := by
      simp only [List.mem_cons, List.mem_append]
      exact or_left_comm
    by_cases hknown : mark x ∈ known
    · rw [freshBy_cons_of_mem mark xs hknown,
        freshBy_cons_of_mem mark xs (List.mem_append_right more hknown),
        freshBy_known_append mark more xs known]
    · rw [freshBy_cons_of_notMem mark xs hknown]
      by_cases hmore : mark x ∈ more
      · -- from here on the mark is known twice, which is as good as once
        have hall (m : κ) : m ∈ more ++ known ↔ m ∈ more ++ mark x :: known := by
          rw [← hswap, List.mem_cons, or_iff_right_of_imp]
          exact fun hm => List.mem_append_left known (hm ▸ hmore)
        rw [freshBy_cons_of_mem mark xs (List.mem_append_left known hmore),
          List.filter_cons_of_neg (by simpa using hmore), freshBy_congr mark xs hall,
          freshBy_known_append mark more xs]
      · have hnew : mark x ∉ more ++ known := by
          rw [List.mem_append, not_or]
          exact ⟨hmore, hknown⟩
        rw [freshBy_cons_of_notMem mark xs hnew, List.filter_cons_of_pos (by simpa using hmore),
          freshBy_congr mark xs hswap, freshBy_known_append mark more xs]

/-- Of two lists together, the first elements are those of the first list, and those of the second
one with marks that the first list has not. -/
theorem firstBy_append (mark : α → κ) (xs ys : List α) :
    firstBy mark (xs ++ ys)
      = firstBy mark xs ++ (firstBy mark ys).filter fun y => mark y ∉ xs.map mark := by
  have hmarks (m : κ) : m ∈ [] ++ (freshBy mark [] xs).map mark ↔ m ∈ xs.map mark ++ [] := by
    have hall := mem_or_mem_map_freshBy_iff mark xs [] (m := m)
    simpa using hall
  rw [firstBy, freshBy_append, freshBy_congr mark ys hmarks, freshBy_known_append]
  rfl

/-- First elements are the first ones among themselves. -/
theorem firstBy_firstBy (mark : α → κ) (xs : List α) :
    firstBy mark (firstBy mark xs) = firstBy mark xs :=
  freshBy_eq_self mark (fun _ _ => List.not_mem_nil) (pairwise_freshBy mark xs [])

/-- Whether elements are the first ones of a list of all marks that are not known: their marks
come in the order in which they occur, and no element before one of them has its mark. -/
structure IsFirsts (mark : α → κ) (known : List κ) (xs kept : List α) : Prop where
  marks : kept.map mark = ((xs.map mark).filter fun m => m ∉ known).eraseDups
  first : ∀ a ∈ kept, (xs.find? fun x => mark x = mark a) = some a

/-- The marks that are kept are those that are not known, each where it occurs first. -/
theorem map_freshBy (mark : α → κ) :
    ∀ (xs : List α) (known : List κ),
      (freshBy mark known xs).map mark = ((xs.map mark).filter fun m => m ∉ known).eraseDups
  | [], _ => rfl
  | x :: xs, known => by
    rw [List.map_cons]
    by_cases hx : mark x ∈ known
    · rw [freshBy_cons_of_mem mark _ hx, List.filter_cons_of_neg (by simpa using hx),
        map_freshBy mark xs known]
    · rw [freshBy_cons_of_notMem mark _ hx, List.filter_cons_of_pos (by simpa using hx),
        List.map_cons, map_freshBy mark xs, List.eraseDups_cons, List.filter_filter]
      congr 3
      funext m
      by_cases hm : m = mark x <;> simp [hm]

/-- An element that is kept is the first one of its mark. -/
theorem find?_of_mem_freshBy (mark : α → κ) {a : α} :
    ∀ (xs : List α) (known : List κ), a ∈ freshBy mark known xs →
      (xs.find? fun x => mark x = mark a) = some a
  | x :: xs, known, h => by
    have hskip (hne : mark x ≠ mark a) (ha : (xs.find? fun x => mark x = mark a) = some a) :
        ((x :: xs).find? fun x => mark x = mark a) = some a := by
      rw [List.find?_cons_of_neg (by simpa using hne), ha]
    by_cases hx : mark x ∈ known
    · rw [freshBy_cons_of_mem mark _ hx] at h
      refine hskip (fun e => ?_) (find?_of_mem_freshBy mark xs known h)
      exact mark_notMem_of_mem_freshBy mark xs known h (e ▸ hx)
    · rw [freshBy_cons_of_notMem mark _ hx] at h
      rcases List.mem_cons.mp h with rfl | h
      · simp
      · refine hskip (fun e => ?_) (find?_of_mem_freshBy mark xs _ h)
        have hnew := mark_notMem_of_mem_freshBy mark xs _ h
        exact hnew (by simp [e])

/-- What is kept are the first elements of all marks that are not known. -/
theorem isFirsts_freshBy (mark : α → κ) (known : List κ) (xs : List α) :
    IsFirsts mark known xs (freshBy mark known xs) where
  marks := map_freshBy mark xs known
  first _ ha := find?_of_mem_freshBy mark xs known ha

end

end CardCatalog
