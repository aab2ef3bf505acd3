import CardCatalog.Table

/-!
# Rows of a table

The rows of a table are what it finds: a row stands in the list exactly if it is found
under its key.  Ids are given out in ascending order, so a row that is added stands at the
end of the list, and its id was free.

Results: the rows after `put` and `push` (`mem_rows_put`, `rows_push`, `rows_pushAll`), the
next id (`lt_nextId`, `nextId_push`), and how many rows pass a test after `put`
(`countP_rows_put`).
-/

namespace CardCatalog
namespace Table

section Keys

variable {κ α β : Type} [Ord κ] [Std.TransOrd κ] [Std.LawfulEqOrd κ] [DecidableEq κ]

omit [Std.TransOrd κ] [DecidableEq κ] in
/-- Keys in ascending order differ. -/
theorem ne_of_compare_lt
    {k k' : κ}
    (h : compare k k' = .lt) :
    k ≠ k' := by
  rintro rfl
  have hself : compare k k = .eq := Std.ReflCmp.compare_self
  rw [hself] at h
  cases h

omit [Std.TransOrd κ] in
/-- Of a list in ascending order, the row under a key is the one that stands there. -/
theorem rowOf?_eq_some_iff
    {k : κ} {a : α} :
    ∀ {es : List (κ × α)},
      es.Pairwise (fun a b => compare a.1 b.1 = .lt) →
      (rowOf? k es = some a ↔ (k, a) ∈ es)
  | [], _ => by simp [rowOf?]
  | e :: es, h => by
      rw [List.pairwise_cons] at h
      have ih := rowOf?_eq_some_iff (k := k) (a := a) h.2
      by_cases hk : e.1 = k
      · have hnone : rowOf? k es = none := by
          rw [← hk]
          exact rowOf?_eq_none_of_lt h.1
        have hnot : (k, a) ∉ es := by
          rw [← ih, hnone]
          simp
        subst hk
        simp only [rowOf?, if_true, Option.some.injEq, List.mem_cons, hnot, or_false]
        constructor
        · rintro rfl
          rfl
        · intro he
          rw [← he]
      · have hne : (k, a) ≠ e := by
          rintro rfl
          exact hk rfl
        simp [rowOf?, hk, ih, hne]

omit [Std.TransOrd κ] in
/-- A table finds exactly its rows. -/
theorem get?_eq_some_iff
    (t : Table κ α) {k : κ} {a : α} :
    t.get? k = some a ↔ (k, a) ∈ t.rows :=
  rowOf?_eq_some_iff t.ascending

omit [Std.TransOrd κ] in
theorem mem_rows_iff
    (t : Table κ α) {e : κ × α} :
    e ∈ t.rows ↔ t.get? e.1 = some e.2 :=
  t.get?_eq_some_iff.symm

omit [Std.TransOrd κ] [Std.LawfulEqOrd κ] in
theorem contains_iff
    (t : Table κ α) {k : κ} :
    t.contains k = true ↔ ∃ a, t.get? k = some a := by
  simp [contains, Option.isSome_iff_exists]

omit [Std.TransOrd κ] [Std.LawfulEqOrd κ] in
theorem contains_eq_false_iff
    (t : Table κ α) {k : κ} :
    t.contains k = false ↔ t.get? k = none := by
  simp [contains]

omit [Std.TransOrd κ] in
theorem contains_of_mem
    {t : Table κ α} {e : κ × α}
    (h : e ∈ t.rows) :
    t.contains e.1 = true :=
  t.contains_iff.2 ⟨e.2, t.mem_rows_iff.1 h⟩

@[simp] theorem contains_put
    (t : Table κ α) (k k' : κ) (a : α) :
    (t.put k a).contains k' = (decide (k' = k) || t.contains k') := by
  by_cases h : k' = k <;> simp [contains, h]

omit [Std.TransOrd κ] in
@[simp] theorem contains_erase
    (t : Table κ α) (k k' : κ) :
    (t.erase k).contains k' = (decide (k' ≠ k) && t.contains k') := by
  by_cases h : k' = k
  · subst h
    cases hg : t.get? k' <;> simp [contains, erase, hg, Option.filter]
  · cases hg : t.get? k' <;> simp [contains, erase, hg, h, Option.filter]

/-- The rows after a row is put in: the new one, and those under other keys. -/
theorem mem_rows_put
    (t : Table κ α) (k : κ) (a : α) {e : κ × α} :
    e ∈ (t.put k a).rows ↔ e = (k, a) ∨ e.1 ≠ k ∧ e ∈ t.rows := by
  rw [mem_rows_iff, get?_put, mem_rows_iff]
  by_cases h : e.1 = k
  · simp only [h, if_true, ne_eq, not_true_eq_false, false_and, or_false]
    constructor
    · intro ha
      exact Prod.ext h (Option.some.inj ha).symm
    · rintro rfl
      rfl
  · have hne : e ≠ (k, a) := by
      rintro rfl
      exact h rfl
    simp [h, hne]

/-- Of two rows that are put under a key, the later one stays. -/
@[simp] theorem put_put
    (t : Table κ α) (k : κ) (a b : α) :
    (t.put k a).put k b = t.put k b := by
  refine ext_get? fun k' => ?_
  simp only [get?_put]
  split <;> rfl

/-- A row that is put in its own place changes nothing. -/
theorem put_self
    {t : Table κ α} {k : κ} {a : α}
    (h : t.get? k = some a) :
    t.put k a = t := by
  refine ext_get? fun k' => ?_
  rw [get?_put]
  split
  · rename_i hk
    rw [hk, h]
  · rfl

omit [Std.TransOrd κ] [Std.LawfulEqOrd κ] [DecidableEq κ] in
/-- The rows of a table lie before and behind a row that it finds. -/
theorem exists_rows_eq_append
    [Std.LawfulEqOrd κ] [DecidableEq κ]
    {t : Table κ α} {k : κ} {a : α}
    (h : t.get? k = some a) :
    ∃ before after : List (κ × α),
      t.rows = before ++ (k, a) :: after ∧
      (∀ e ∈ before, compare e.1 k = .lt) ∧
      (∀ e ∈ after, compare k e.1 = .lt) := by
  have hmem := t.get?_eq_some_iff.1 h
  obtain ⟨before, after, hrows⟩ := List.append_of_mem hmem
  have hasc := t.ascending
  rw [hrows, List.pairwise_append, List.pairwise_cons] at hasc
  obtain ⟨_, ⟨hafter, _⟩, hbefore⟩ := hasc
  exact ⟨before, after, hrows, fun e he => hbefore e he (k, a) (by simp), hafter⟩

omit [Std.LawfulEqOrd κ] [DecidableEq κ] in
/-- A row is put in place of the one under its key. -/
theorem putRow_append
    {k : κ} {a old : α} {after : List (κ × α)} :
    ∀ {before : List (κ × α)}, (∀ e ∈ before, compare e.1 k = .lt) →
      putRow k a (before ++ (k, old) :: after) = before ++ (k, a) :: after
  | [], _ => by
      simp [putRow]
  | e :: before, h => by
      have hgt : compare k e.1 = .gt :=
        Std.OrientedCmp.gt_of_lt (h e (by simp))
      have hbefore : ∀ e' ∈ before, compare e'.1 k = .lt :=
        fun e' he' => h e' (List.mem_cons_of_mem e he')
      simp [putRow, hgt, putRow_append hbefore]

/-- Putting a row in place of another one changes how many rows pass a test by these two
rows. -/
theorem countP_rows_put
    (p : κ × α → Bool) {t : Table κ α} {k : κ} {old : α} (a : α)
    (h : t.get? k = some old) :
    (t.put k a).rows.countP p + [(k, old)].countP p
      = t.rows.countP p + [(k, a)].countP p := by
  obtain ⟨before, after, hrows, hbefore, _⟩ := exists_rows_eq_append h
  have hput : (t.put k a).rows = before ++ (k, a) :: after := by
    show putRow k a t.rows = _
    rw [hrows]
    exact putRow_append hbefore
  rw [hput, hrows]
  simp only [List.countP_append, List.countP_cons, List.countP_nil]
  omega

omit [Std.TransOrd κ] in
/-- Taking a row away takes it out of the count of rows that pass a test. -/
theorem countP_rows_erase
    (p : κ × α → Bool) {t : Table κ α} {k : κ} {a : α}
    (h : t.get? k = some a) :
    (t.erase k).rows.countP p + [(k, a)].countP p = t.rows.countP p := by
  obtain ⟨before, after, hrows, hbefore, hafter⟩ := exists_rows_eq_append h
  have hne₁ : ∀ e ∈ before, decide (e.1 ≠ k) = true :=
    fun e he => decide_eq_true (ne_of_compare_lt (hbefore e he))
  have hne₂ : ∀ e ∈ after, decide (e.1 ≠ k) = true :=
    fun e he => decide_eq_true (ne_of_compare_lt (hafter e he)).symm
  have herase : (t.erase k).rows = before ++ after := by
    show t.rows.filter (fun e => decide (e.1 ≠ k)) = _
    rw [hrows, List.filter_append, List.filter_cons_of_neg (by simp),
      List.filter_eq_self.2 hne₁, List.filter_eq_self.2 hne₂]
  rw [herase, hrows]
  simp only [List.countP_append, List.countP_cons, List.countP_nil]
  omega

omit [Std.TransOrd κ] [Std.LawfulEqOrd κ] in
/-- A table of changed rows finds the changed row. -/
@[simp] theorem get?_map
    (t : Table κ α) (f : κ → α → β) (k : κ) :
    (t.map f).get? k = (t.get? k).map (f k) := by
  show rowOf? k (t.rows.map fun e => (e.1, f e.1 e.2)) = (rowOf? k t.rows).map (f k)
  induction t.rows with
  | nil => rfl
  | cons e es ih =>
      by_cases hk : e.1 = k
      · subst hk
        simp [rowOf?]
      · simpa [rowOf?, hk] using ih

end Keys

section Ids

variable {α : Type}

/-- The next id is larger than all that were given out. -/
theorem lt_nextId
    {t : Table Int α} {e : Int × α}
    (h : e ∈ t.rows) :
    e.1 < t.nextId := by
  rcases List.eq_nil_or_concat t.rows with hnil | ⟨rest, last, hrows⟩
  · rw [hnil] at h
    cases h
  · have hasc := t.ascending
    have hnext : t.nextId = last.1 + 1 := by
      simp [nextId, hrows]
    rw [hrows, List.concat_eq_append, List.pairwise_append] at hasc
    rw [hrows, List.concat_eq_append, List.mem_append, List.mem_singleton] at h
    rw [hnext]
    rcases h with h | rfl
    · have := Int.compare_eq_lt.1 (hasc.2.2 e h last (by simp))
      omega
    · omega

theorem lt_nextId_of_contains
    {t : Table Int α} {k : Int}
    (h : t.contains k = true) :
    k < t.nextId := by
  obtain ⟨a, ha⟩ := t.contains_iff.1 h
  exact lt_nextId (e := (k, a)) (t.get?_eq_some_iff.1 ha)

/-- The next id is the one after some id that was given out, unless it is the first. -/
theorem nextId_eq_one_or
    (t : Table Int α) :
    t.nextId = 1 ∨ ∃ e ∈ t.rows, t.nextId = e.1 + 1 := by
  unfold nextId
  cases h : t.rows.getLast? with
  | none => exact Or.inl rfl
  | some e => exact Or.inr ⟨e, List.mem_of_getLast? h, rfl⟩

theorem get?_nextId
    (t : Table Int α) :
    t.get? t.nextId = none := by
  cases h : t.get? t.nextId with
  | none => rfl
  | some a =>
      have := lt_nextId (t.get?_eq_some_iff.1 h)
      simp at this

/-- A row that is put behind all others stands at the end. -/
theorem putRow_eq_append
    {k : Int} {a : α} :
    ∀ {es : List (Int × α)}, (∀ e ∈ es, e.1 < k) → putRow k a es = es ++ [(k, a)]
  | [], _ => rfl
  | e :: es, h => by
      have hgt : compare k e.1 = .gt :=
        Std.OrientedCmp.gt_of_lt (Int.compare_eq_lt.2 (h e (by simp)))
      have ih := putRow_eq_append (a := a)
        (fun e' he' => h e' (List.mem_cons_of_mem e he'))
      simp [putRow, hgt, ih]

@[simp] theorem rows_push
    (t : Table Int α) (a : α) :
    (t.push a).rows = t.rows ++ [(t.nextId, a)] :=
  putRow_eq_append fun _ he => lt_nextId he

@[simp] theorem nextId_push
    (t : Table Int α) (a : α) :
    (t.push a).nextId = t.nextId + 1 := by
  simp [nextId]

@[simp] theorem get?_push
    (t : Table Int α) (a : α) (k : Int) :
    (t.push a).get? k = if k = t.nextId then some a else t.get? k :=
  get?_put t t.nextId k a

@[simp] theorem contains_push
    (t : Table Int α) (a : α) (k : Int) :
    (t.push a).contains k = (decide (k = t.nextId) || t.contains k) :=
  contains_put t t.nextId k a

/-- Rows that are added stand at the end, in their order. -/
theorem rows_pushAll
    (t : Table Int α) (as : List α) :
    ∃ new : List (Int × α),
      (t.pushAll as).rows = t.rows ++ new ∧ new.map Prod.snd = as := by
  induction as generalizing t with
  | nil => exact ⟨[], by simp [pushAll], rfl⟩
  | cons a as ih =>
      obtain ⟨new, hrows, hnew⟩ := ih (t.push a)
      refine ⟨(t.nextId, a) :: new, ?_, by simp [hnew]⟩
      show ((t.push a).pushAll as).rows = _
      rw [hrows, rows_push, List.append_assoc]
      rfl

/-- Rows that fail a test may be added without the rows that pass it noticing. -/
theorem filter_rows_pushAll
    (t : Table Int α) {as : List α} {p : α → Bool}
    (fail : ∀ a ∈ as, p a = false) :
    ((t.pushAll as).rows.filter fun e => p e.2) = t.rows.filter fun e => p e.2 := by
  obtain ⟨new, hrows, hvalues⟩ := t.rows_pushAll as
  have hnone : (new.filter fun e => p e.2) = [] := by
    refine List.filter_eq_nil_iff.2 fun e he => ?_
    rw [fail e.2 (hvalues ▸ List.mem_map.2 ⟨e, he, rfl⟩)]
    exact Bool.false_ne_true
  rw [hrows, List.filter_append, hnone, List.append_nil]

/-- If no other rows pass a test, those pass it that are added. -/
theorem map_filter_rows_pushAll
    {t : Table Int α} {as : List α} {p : α → Bool}
    (fail : ∀ e ∈ t.rows, p e.2 = false)
    (pass : ∀ a ∈ as, p a = true) :
    (((t.pushAll as).rows.filter fun e => p e.2).map Prod.snd) = as := by
  obtain ⟨new, hrows, hvalues⟩ := t.rows_pushAll as
  have hold : (t.rows.filter fun e => p e.2) = [] := by
    refine List.filter_eq_nil_iff.2 fun e he => ?_
    rw [fail e he]
    exact Bool.false_ne_true
  have hnew : (new.filter fun e => p e.2) = new :=
    List.filter_eq_self.2 fun e he => pass e.2 (hvalues ▸ List.mem_map.2 ⟨e, he, rfl⟩)
  rw [hrows, List.filter_append, hold, hnew, List.nil_append, hvalues]

end Ids

end Table
end CardCatalog
