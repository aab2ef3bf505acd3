import CardCatalog.Json.Basic
import Mathlib.Data.List.Nodup

/-!
# The fields of an object

A value is put into fields in place of one of its name, or behind all of them.  So fields keep
distinct names, and a choice of names sees nothing of what is put under others.

Results: what is found among fields after one is put (`mem_of_mem_put`), and after many are
(`get?_foldl_put`); the fields of a choice of names (`filter_put`), and the last one of them
(`getLast?_put`).
-/

namespace CardCatalog

namespace Json

section Fields

variable {κ α : Type} [DecidableEq κ] {fields : List (κ × α)} {name : κ} {value : α}

theorem mem_of_mem_put
    {f : κ × α}
    (h : f ∈ put fields name value) :
    f ∈ fields ∨ f = (name, value) := by
  induction fields with
  | nil => exact .inr (List.mem_singleton.1 h)
  | cons g fields ih =>
      unfold put at h
      split at h
      · rcases List.mem_cons.1 h with rfl | h
        · exact .inr rfl
        · exact .inl (List.mem_cons_of_mem _ h)
      · rcases List.mem_cons.1 h with rfl | h
        · exact .inl List.mem_cons_self
        · exact (ih h).imp_left (List.mem_cons_of_mem _)

theorem keys_put :
    (put fields name value).map (·.1)
      = if name ∈ fields.map (·.1) then fields.map (·.1) else fields.map (·.1) ++ [name] := by
  induction fields with
  | nil => rfl
  | cons f fields ih =>
      by_cases hf : f.1 = name
      · simp [put, hf]
      · rw [put, if_neg hf, List.map_cons, ih, List.map_cons]
        by_cases hmem : name ∈ fields.map (·.1)
        · rw [if_pos hmem, if_pos (List.mem_cons_of_mem _ hmem)]
        · rw [if_neg hmem, if_neg (List.not_mem_cons_of_ne_of_not_mem (Ne.symm hf) hmem),
            List.cons_append]

theorem nodup_put
    (h : (fields.map (·.1)).Nodup) :
    ((put fields name value).map (·.1)).Nodup := by
  rw [keys_put]
  split
  · exact h
  · rename_i hmem
    exact List.nodup_append.2 ⟨h, List.nodup_singleton name, fun k hk k' hk' => by
      rw [List.mem_singleton.1 hk']
      rintro rfl
      exact hmem hk⟩

/-- A choice of names does not see what is put under others. -/
theorem filter_put
    (p : κ → Bool) :
    (put fields name value).filter (fun f => p f.1)
      = if p name then put (fields.filter fun f => p f.1) name value
        else fields.filter fun f => p f.1 := by
  induction fields with
  | nil => cases hp : p name <;> simp [put, hp]
  | cons f fields ih =>
      by_cases hf : f.1 = name
      · cases hp : p name <;> simp [put, hf, hp]
      · rw [put, if_neg hf]
        simp only [List.filter_cons, ih]
        cases p f.1 <;> cases p name <;> simp [put, hf]

/-- What is put under a name comes last whatever it is, or never. -/
theorem getLast?_put
    (fields : List (κ × α)) (name : κ) :
    (∀ value, (put fields name value).getLast? = some (name, value)) ∨
      ∀ value, (put fields name value).getLast? = fields.getLast? := by
  induction fields with
  | nil => exact .inl fun _ => rfl
  | cons f fields ih =>
      by_cases hf : f.1 = name
      · simp only [put, if_pos hf, List.getLast?_cons]
        cases fields.getLast? with
        | none => exact .inl fun _ => rfl
        | some last => exact .inr fun _ => rfl
      · simp only [put, if_neg hf, List.getLast?_cons]
        rcases ih with h | h
        · exact .inl fun value => by rw [h]; rfl
        · exact .inr fun value => by rw [h]

theorem get?_eq_none_iff : get? fields name = none ↔ ∀ f ∈ fields, f.1 ≠ name := by
  simp [get?, List.find?_eq_none]

/-- A new name comes last. -/
theorem put_of_get?_eq_none
    (h : get? fields name = none) :
    put fields name value = fields ++ [(name, value)] := by
  induction fields with
  | nil => rfl
  | cons f fields ih =>
      obtain ⟨hf, hfields⟩ := List.forall_mem_cons.1 (get?_eq_none_iff.1 h)
      rw [put, if_neg hf, ih (get?_eq_none_iff.2 hfields), List.cons_append]

theorem mem_of_get?_eq_some
    (h : get? fields name = some value) :
    (name, value) ∈ fields := by
  obtain ⟨f, hfind, rfl⟩ := Option.map_eq_some_iff.1 h
  have hname : f.1 = name := by simpa using List.find?_some hfind
  exact hname ▸ List.mem_of_find?_eq_some hfind

/-- A name among distinct ones stands at one place. -/
theorem exists_eq_append_of_get?
    (distinct : (fields.map (·.1)).Nodup)
    (h : get? fields name = some value) :
    ∃ before after, fields = before ++ (name, value) :: after ∧
      (∀ f ∈ before, f.1 ≠ name) ∧ ∀ f ∈ after, f.1 ≠ name := by
  obtain ⟨before, after, rfl⟩ := List.append_of_mem (mem_of_get?_eq_some h)
  rw [List.map_append, List.map_cons, List.nodup_append, List.nodup_cons] at distinct
  obtain ⟨_, ⟨hafter, _⟩, hbefore⟩ := distinct
  refine ⟨before, after, rfl, fun f hf hname => ?_, fun f hf hname => ?_⟩
  · exact hbefore f.1 (List.mem_map_of_mem hf) name List.mem_cons_self hname
  · exact hafter (List.mem_map.2 ⟨f, hf, hname⟩)

/-- What is put under names that are chosen for the elements of a list is what the last element of
each name gives. -/
theorem get?_foldl_put
    {β : Type} (key : β → κ) (f : β → α) (xs : List β) (fields : List (κ × α)) (name : κ) :
    get? (xs.foldl (fun found x => put found (key x) (f x)) fields) name
      = (((xs.filter fun x => key x = name).getLast?).map f).or (get? fields name) := by
  induction xs generalizing fields with
  | nil => rfl
  | cons x xs ih =>
      rw [List.foldl_cons, ih, get?_put]
      by_cases hx : key x = name
      · rw [List.filter_cons_of_pos (by simpa using hx), List.getLast?_cons, if_pos hx.symm]
        cases (xs.filter fun x => key x = name).getLast? <;> rfl
      · rw [List.filter_cons_of_neg (by simpa using hx), if_neg (Ne.symm hx)]

end Fields

end Json

end CardCatalog
