import CardCatalog.Proofs.Soundness
import Mathlib.Algebra.BigOperators.Group.List.Basic
import Mathlib.Algebra.GroupWithZero.Nat

/-!
# How often rows are used

The report of a kind counts how often each of its rows is pointed at.  Its entries are sorted by
their counts, and the sort leaves entries of equal counts in the order of their ids, in which
they stood before.

Results: the entries are the rows of the kind, each once (`map_recordCounts_perm`), the most used
first and by id among equals (`pairwise_recordCounts`).  In a sound store the counts of a direct
kind add up to the number of records (`sum_recordCounts`).
-/

namespace CardCatalog

section Lists

variable {α : Type}

/-- A list in some order that is sorted by ranks keeps that order among equal ranks. -/
theorem pairwise_mergeSort_of_pairwise
    {R : α → α → Prop} {xs : List α} (rank : α → Nat)
    (h : xs.Pairwise R) :
    (xs.mergeSort fun a b => rank b ≤ rank a).Pairwise fun a b =>
      rank b < rank a ∨ rank a = rank b ∧ R a b := by
  have htrans : ∀ a b c : α,
      decide (rank b ≤ rank a) = true → decide (rank c ≤ rank b) = true →
        decide (rank c ≤ rank a) = true := by
    intro a b c hab hbc
    simp only [decide_eq_true_eq] at hab hbc ⊢
    omega
  have htotal : ∀ a b : α, (decide (rank b ≤ rank a) || decide (rank a ≤ rank b)) = true := by
    intro a b
    simp only [Bool.or_eq_true, decide_eq_true_eq]
    omega
  have hsorted := List.pairwise_mergeSort htrans htotal xs
  have hperm := List.mergeSort_perm xs fun a b => decide (rank b ≤ rank a)
  generalize hys : (xs.mergeSort fun a b => decide (rank b ≤ rank a)) = ys at hsorted hperm
  -- the elements of one rank stand in the sorted list as they stood before
  have htie (n : Nat) :
      (ys.filter fun a => rank a = n) = xs.filter fun a => rank a = n := by
    have hequal : (xs.filter fun a => rank a = n).Pairwise fun a b =>
        decide (rank b ≤ rank a) = true := by
      refine List.pairwise_iff_forall_sublist.2 fun {a b} hsub => ?_
      have ha := of_decide_eq_true (List.mem_filter.1 (hsub.subset (by simp : a ∈ [a, b]))).2
      have hb := of_decide_eq_true (List.mem_filter.1 (hsub.subset (by simp : b ∈ [a, b]))).2
      exact decide_eq_true (by omega)
    have hsub := List.sublist_mergeSort htrans htotal hequal List.filter_sublist
    rw [hys] at hsub
    have hkept := hsub.filter fun a => decide (rank a = n)
    rw [List.filter_filter] at hkept
    simp only [Bool.and_self] at hkept
    exact (hkept.eq_of_length (hperm.filter _).length_eq.symm).symm
  refine List.pairwise_iff_forall_sublist.2 fun {a b} hsub => ?_
  have hle := of_decide_eq_true (List.pairwise_iff_forall_sublist.1 hsorted hsub)
  rcases Nat.lt_or_eq_of_le hle with hlt | heq
  · exact Or.inl hlt
  · have hpair := hsub.filter fun c => decide (rank c = rank a)
    rw [htie] at hpair
    simp only [heq, decide_true, List.filter_cons_of_pos, List.filter_nil] at hpair
    have hbefore := hpair.trans List.filter_sublist
    exact Or.inr ⟨heq.symm, List.pairwise_iff_forall_sublist.1 h hbefore⟩

/-- Of distinct keys, one is a given one of them. -/
theorem sum_indicator
    {keys : List Int} {key : Int}
    (distinct : keys.Nodup)
    (found : key ∈ keys) :
    (keys.map fun k => if key = k then 1 else 0).sum = 1 := by
  induction keys with
  | nil => cases found
  | cons k keys ih =>
      obtain ⟨hfresh, hdistinct⟩ := List.nodup_cons.1 distinct
      rcases List.mem_cons.1 found with rfl | hfound
      · have hnone : ∀ k ∈ keys, (if key = k then 1 else 0 : Nat) = 0 := by
          intro k hk
          exact if_neg fun e : key = k => hfresh (e ▸ hk)
        simp [List.map_congr_left hnone]
      · have hne : ¬ key = k := fun e => hfresh (e ▸ hfound)
        simp [hne, ih hdistinct hfound]

/-- What is counted under distinct keys, and has one of them, is counted once. -/
theorem sum_countP_eq_length
    (key : α → Int) {keys : List Int}
    (distinct : keys.Nodup)
    {xs : List α}
    (found : ∀ x ∈ xs, key x ∈ keys) :
    (keys.map fun k => xs.countP fun x => key x = k).sum = xs.length := by
  induction xs with
  | nil => simp
  | cons x xs ih =>
      have hrest := ih fun y hy => found y (List.mem_cons_of_mem x hy)
      have hone := sum_indicator distinct (found x (by simp))
      simp only [List.countP_cons, decide_eq_true_eq, List.sum_map_add, hrest, hone,
        List.length_cons]

end Lists

namespace Store

/-- The report of a kind counts so many uses of a row. -/
def Counts (s : Store) (k : Kind) (id : Int) (n : Nat) : Prop :=
  ∃ c ∈ s.recordCounts k, c.id = id ∧ c.count = n

instance (s : Store) (k : Kind) (id : Int) (n : Nat) : Decidable (s.Counts k id n) :=
  inferInstanceAs (Decidable (∃ c ∈ s.recordCounts k, c.id = id ∧ c.count = n))

section Reports

variable (s : Store) (k : Kind)

/-- The entry of the report for a row. -/
def countOf (e : Int × NaturalKey String) : RecordCount :=
  ⟨e.1, e.2.name, s.uses k e.1⟩

theorem recordCounts_eq :
    s.recordCounts k
      = ((s.keys k).rows.map (s.countOf k)).mergeSort fun a b => b.count ≤ a.count := by
  unfold recordCounts lookupRows
  rw [List.map_map]
  rfl

theorem recordCounts_perm :
    (s.recordCounts k).Perm ((s.keys k).rows.map (s.countOf k)) := by
  rw [recordCounts_eq]
  exact List.mergeSort_perm _ _

/-- The report has the rows of the kind, each once. -/
theorem map_recordCounts_perm :
    ((s.recordCounts k).map fun c => (c.id, c.name)).Perm
      ((s.keys k).rows.map fun e => (e.1, e.2.name)) := by
  have hperm := (s.recordCounts_perm k).map fun c => (c.id, c.name)
  rwa [List.map_map] at hperm

/-- The most used rows come first, and rows that are used equally often by their ids. -/
theorem pairwise_recordCounts :
    (s.recordCounts k).Pairwise fun a b =>
      b.count < a.count ∨ a.count = b.count ∧ a.id < b.id := by
  have hids : ((s.keys k).rows.map (s.countOf k)).Pairwise fun a b => a.id < b.id := by
    rw [List.pairwise_map]
    exact (s.keys k).ascending.imp Int.compare_eq_lt.1
  rw [recordCounts_eq]
  exact pairwise_mergeSort_of_pairwise RecordCount.count hids

variable {s k}

/-- The report counts the uses of the rows of the kind. -/
theorem counts_iff {id : Int} {n : Nat} :
    s.Counts k id n ↔ (s.keys k).contains id = true ∧ s.uses k id = n := by
  unfold Counts
  constructor
  · rintro ⟨c, hc, rfl, rfl⟩
    obtain ⟨e, he, rfl⟩ := List.mem_map.1 ((s.recordCounts_perm k).mem_iff.1 hc)
    exact ⟨Table.contains_of_mem he, rfl⟩
  · rintro ⟨hid, rfl⟩
    obtain ⟨key, hkey⟩ := (s.keys k).contains_iff.1 hid
    refine ⟨s.countOf k (id, key), (s.recordCounts_perm k).mem_iff.2 ?_, rfl, rfl⟩
    exact List.mem_map.2 ⟨(id, key), (s.keys k).get?_eq_some_iff.1 hkey, rfl⟩

/-- Every record points at one row of a direct kind, so the counts of the kind add up to the
number of records. -/
theorem Sound.sum_recordCounts
    (h : s.Sound) (d : DirectKind) :
    ((s.recordCounts (.direct d)).map RecordCount.count).sum = s.records.rows.length := by
  have hdistinct : ((s.keys (.direct d)).rows.map Prod.fst).Nodup := by
    refine List.pairwise_map.2 ((s.keys (.direct d)).ascending.imp fun hlt => ?_)
    exact Table.ne_of_compare_lt hlt
  have hfound : ∀ e ∈ s.records.rows,
      e.2.refs.get d ∈ (s.keys (.direct d)).rows.map Prod.fst := by
    intro e he
    obtain ⟨key, hkey⟩ := (s.keys (.direct d)).contains_iff.1
      (h.refs e.1 e.2 (s.records.mem_rows_iff.1 he) d)
    exact List.mem_map.2 ⟨(_, key), (s.keys (.direct d)).get?_eq_some_iff.1 hkey, rfl⟩
  rw [((s.recordCounts_perm (.direct d)).map RecordCount.count).sum_eq, List.map_map,
    ← sum_countP_eq_length (fun e : String × RecordRow => e.2.refs.get d) hdistinct hfound,
    List.map_map]
  rfl

end Reports

end Store
end CardCatalog
