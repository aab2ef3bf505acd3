/-!
# Tables

A table is a finite map whose rows are kept in ascending order of their keys; the order
is part of the type. Integer keys are given out one after the last.

Results: each operation is described by the rows it finds (`get?_put`, `get?_filter`), and
two tables in which the same rows are found are equal (`ext_get?`).
-/

namespace CardCatalog

/-- Rows under keys, in ascending order of the keys. -/
structure Table (κ α : Type) [Ord κ] where
  rows : List (κ × α)
  ascending : rows.Pairwise fun a b => compare a.1 b.1 = .lt

namespace Table

section Basics

variable {κ α β : Type} [Ord κ]

instance [DecidableEq κ] [DecidableEq α] : DecidableEq (Table κ α) := fun s t =>
  if h : s.rows = t.rows then
    isTrue (by cases s; cases t; simp_all)
  else isFalse fun e => h (congrArg rows e)

/-- Tables with the same rows are equal. -/
theorem ext_rows {s t : Table κ α} (h : s.rows = t.rows) : s = t := by
  cases s
  cases t
  simp_all

/-- The table without rows. -/
def empty : Table κ α := ⟨[], List.Pairwise.nil⟩

instance : Inhabited (Table κ α) := ⟨empty⟩

/-- The row under a key, in a list of rows. -/
def rowOf? [DecidableEq κ] (k : κ) : List (κ × α) → Option α
  | [] => none
  | e :: es => if e.1 = k then some e.2 else rowOf? k es

/-- The row under a key. -/
def get? [DecidableEq κ] (t : Table κ α) (k : κ) : Option α :=
  rowOf? k t.rows

/-- Whether there is a row under a key. -/
def contains [DecidableEq κ] (t : Table κ α) (k : κ) : Bool :=
  (t.get? k).isSome

/-- Puts a row under a key into a list of rows. -/
def putRow (k : κ) (a : α) : List (κ × α) → List (κ × α)
  | [] => [(k, a)]
  | e :: es =>
    match compare k e.1 with
    | .lt => (k, a) :: e :: es
    | .eq => (k, a) :: es
    | .gt => e :: putRow k a es

/-- The rows that pass a test. -/
def filter (p : κ → α → Bool) (t : Table κ α) : Table κ α :=
  ⟨t.rows.filter fun e => p e.1 e.2, t.ascending.filter _⟩

/-- Takes the row under a key away. -/
def erase [DecidableEq κ] (t : Table κ α) (k : κ) : Table κ α :=
  t.filter fun k' _ => k' ≠ k

/-- Changes every row. -/
def map (f : κ → α → β) (t : Table κ α) : Table κ β :=
  ⟨t.rows.map fun e => (e.1, f e.1 e.2), List.pairwise_map.mpr t.ascending⟩

end Basics

section Order

variable {κ α β : Type} [Ord κ] [Std.TransOrd κ] [Std.LawfulEqOrd κ]

omit [Std.TransOrd κ] [Std.LawfulEqOrd κ] in
/-- A key that lies before the one put in, and before all rows, lies before all rows
afterwards. -/
theorem lt_of_mem_putRow {k' k : κ} {a : α} (h : compare k' k = .lt) :
    ∀ {es : List (κ × α)}, (∀ e ∈ es, compare k' e.1 = .lt) →
      ∀ e ∈ putRow k a es, compare k' e.1 = .lt
  | [], _, e, he => by
    simp only [putRow, List.mem_singleton] at he
    exact he ▸ h
  | e₀ :: es, hes, e, he => by
    unfold putRow at he
    split at he
    · rcases List.mem_cons.mp he with rfl | he
      · exact h
      · exact hes e he
    · rcases List.mem_cons.mp he with rfl | he
      · exact h
      · exact hes e (List.mem_cons_of_mem _ he)
    · rcases List.mem_cons.mp he with rfl | he
      · exact hes e (by simp)
      · exact lt_of_mem_putRow h (fun e he => hes e (List.mem_cons_of_mem _ he)) e he

/-- Putting a row in keeps the order. -/
theorem ascending_putRow (k : κ) (a : α) :
    ∀ {es : List (κ × α)}, es.Pairwise (fun a b => compare a.1 b.1 = .lt) →
      (putRow k a es).Pairwise fun a b => compare a.1 b.1 = .lt
  | [], _ => by simp [putRow]
  | e :: es, h => by
    rw [List.pairwise_cons] at h
    unfold putRow
    split
    · rename_i hk
      refine List.Pairwise.cons ?_ (List.Pairwise.cons h.1 h.2)
      intro e' he'
      rcases List.mem_cons.mp he' with rfl | he'
      · exact hk
      · exact Std.TransCmp.lt_trans hk (h.1 e' he')
    · rename_i hk
      have hk := Std.LawfulEqOrd.eq_of_compare hk
      exact List.Pairwise.cons (fun e' he' => hk ▸ h.1 e' he') h.2
    · rename_i hk
      refine List.Pairwise.cons ?_ (ascending_putRow k a h.2)
      exact lt_of_mem_putRow (Std.OrientedCmp.lt_of_gt hk) h.1

/-- Puts a row under a key, in place of the old one if there is one. -/
def put (t : Table κ α) (k : κ) (a : α) : Table κ α :=
  ⟨putRow k a t.rows, ascending_putRow k a t.ascending⟩

variable [DecidableEq κ]

omit [Std.TransOrd κ] in
/-- A list of rows finds the row put in, and other rows as before. -/
theorem rowOf?_putRow (k k' : κ) (a : α) :
    ∀ es : List (κ × α),
      rowOf? k' (putRow k a es) = if k' = k then some a else rowOf? k' es
  | [] => by simp [putRow, rowOf?, eq_comm]
  | e :: es => by
    unfold putRow
    split
    · simp [rowOf?, eq_comm]
    · rename_i hk
      have hk := Std.LawfulEqOrd.eq_of_compare hk
      by_cases h : k' = k
      · simp [rowOf?, h]
      · have : ¬ e.1 = k' := fun e' => h (by rw [hk, e'])
        simp [rowOf?, h, Ne.symm h, this]
    · rename_i hk
      have hne : k ≠ e.1 := by
        intro h
        have hr : compare e.1 e.1 = .eq := Std.ReflCmp.compare_self
        rw [h, hr] at hk
        cases hk
      by_cases h : e.1 = k'
      · have : ¬ k' = k := fun h' => hne (by rw [← h', h])
        simp [rowOf?, h, this]
      · simp [rowOf?, h, rowOf?_putRow k k' a es]

/-- A table finds the row put in, and other rows as before. -/
@[simp] theorem get?_put (t : Table κ α) (k k' : κ) (a : α) :
    (t.put k a).get? k' = if k' = k then some a else t.get? k' :=
  rowOf?_putRow k k' a t.rows

omit [Std.TransOrd κ] in
/-- A key before all rows has none. -/
theorem rowOf?_eq_none_of_lt {k : κ} :
    ∀ {es : List (κ × α)}, (∀ e ∈ es, compare k e.1 = .lt) → rowOf? k es = none
  | [], _ => rfl
  | e :: es, h => by
    have hne : ¬ e.1 = k := by
      intro heq
      have hlt := h e (by simp)
      have hr : compare k k = .eq := Std.ReflCmp.compare_self
      rw [heq, hr] at hlt
      cases hlt
    have ih := rowOf?_eq_none_of_lt fun e' he' => h e' (List.mem_cons_of_mem _ he')
    simp [rowOf?, hne, ih]

omit [Std.TransOrd κ] in
/-- Of a list in ascending order, filtering keeps the row under a key exactly if it
passes. -/
theorem rowOf?_filter (p : κ → α → Bool) (k : κ) :
    ∀ {es : List (κ × α)}, es.Pairwise (fun a b => compare a.1 b.1 = .lt) →
      rowOf? k (es.filter fun e => p e.1 e.2) = (rowOf? k es).filter (p k)
  | [], _ => rfl
  | e :: es, h => by
    rw [List.pairwise_cons] at h
    have ih := rowOf?_filter p k h.2
    by_cases hk : e.1 = k
    · subst hk
      have hnone := rowOf?_eq_none_of_lt h.1
      by_cases hp : p e.1 e.2
      · simp [rowOf?, hp, Option.filter]
      · simp [rowOf?, hp, ih, hnone, Option.filter]
    · by_cases hp : p e.1 e.2
      · simp [rowOf?, hk, hp, ih]
      · simp [rowOf?, hk, hp, ih]

/-- Lists in ascending order are equal if they find the same rows. -/
theorem eq_of_rowOf?_eq :
    ∀ {es fs : List (κ × α)}, es.Pairwise (fun a b => compare a.1 b.1 = .lt) →
      fs.Pairwise (fun a b => compare a.1 b.1 = .lt) →
      (∀ k, rowOf? k es = rowOf? k fs) → es = fs
  | [], [], _, _, _ => rfl
  | [], f :: fs, _, _, h => by simpa [rowOf?] using h f.1
  | e :: es, [], _, _, h => by simpa [rowOf?] using h e.1
  | e :: es, f :: fs, hes, hfs, h => by
    rw [List.pairwise_cons] at hes hfs
    cases hc : compare e.1 f.1 with
    | lt =>
      have hnone : rowOf? e.1 (f :: fs) = none := by
        apply rowOf?_eq_none_of_lt
        intro x hx
        rcases List.mem_cons.mp hx with rfl | hx
        · exact hc
        · exact Std.TransCmp.lt_trans hc (hfs.1 x hx)
      have := h e.1
      rw [hnone] at this
      simp [rowOf?] at this
    | gt =>
      have hlt := Std.OrientedCmp.lt_of_gt hc
      have hnone : rowOf? f.1 (e :: es) = none := by
        apply rowOf?_eq_none_of_lt
        intro x hx
        rcases List.mem_cons.mp hx with rfl | hx
        · exact hlt
        · exact Std.TransCmp.lt_trans hlt (hes.1 x hx)
      have := h f.1
      rw [hnone] at this
      simp [rowOf?] at this
    | eq =>
      obtain ⟨k, a⟩ := e
      obtain ⟨k', b⟩ := f
      have hk : k = k' := Std.LawfulEqOrd.eq_of_compare hc
      subst hk
      have hab : a = b := by simpa [rowOf?] using h k
      have htail : es = fs := by
        refine eq_of_rowOf?_eq hes.2 hfs.2 fun x => ?_
        by_cases hx : k = x
        · subst hx
          rw [rowOf?_eq_none_of_lt hes.1, rowOf?_eq_none_of_lt hfs.1]
        · simpa [rowOf?, hx] using h x
      rw [hab, htail]

/-- Tables are equal if they find the same rows. -/
theorem ext_get? {s t : Table κ α} (h : ∀ k, s.get? k = t.get? k) : s = t :=
  ext_rows (eq_of_rowOf?_eq s.ascending t.ascending h)

omit [Std.TransOrd κ] in
/-- A filtered table finds a row exactly if it was found before and passes. -/
@[simp] theorem get?_filter (t : Table κ α) (p : κ → α → Bool) (k : κ) :
    (t.filter p).get? k = (t.get? k).filter (p k) :=
  rowOf?_filter p k t.ascending

end Order

section Ids

variable {α : Type}

/-- The id that the next new row takes: one after the last, or one in an empty table. -/
def nextId (t : Table Int α) : Int :=
  match t.rows.getLast? with
  | some e => e.1 + 1
  | none => 1

/-- Adds a row under the next id. -/
def push (t : Table Int α) (a : α) : Table Int α :=
  t.put t.nextId a

/-- Adds rows one after the other. -/
def pushAll (t : Table Int α) (as : List α) : Table Int α :=
  as.foldl push t

end Ids

end Table
end CardCatalog
