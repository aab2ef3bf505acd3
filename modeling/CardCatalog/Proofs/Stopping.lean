import CardCatalog.Record
import CardCatalog.Store.Basic
import Mathlib.Data.List.Forall2

/-!
# Computations that stop

A computation answers or stops with a fault.  These lemmas take a sequence of steps apart:
it answers exactly if every step does (`bind_eq_ok_iff`, `mapM_eq_ok_iff`), and it stops
exactly where one of its steps stops (`bind_eq_error_iff`, `exists_of_mapM_eq_error`).

Results: what each of the checks of the store refuses.
-/

namespace CardCatalog

open Text (Wide)

section Sequences

variable {ε α β : Type}

theorem ok_bind_eq
    (a : α) (f : α → Except ε β) :
    (Except.ok a >>= f) = f a := rfl

theorem bind_eq_ok_iff
    {x : Except ε α} {f : α → Except ε β} {b : β} :
    (x >>= f) = .ok b ↔ ∃ a, x = .ok a ∧ f a = .ok b := by
  cases x <;> simp [bind, Except.bind]

theorem bind_eq_error_iff
    {x : Except ε α} {f : α → Except ε β} {e : ε} :
    (x >>= f) = .error e ↔
      x = .error e ∨ ∃ a, x = .ok a ∧ f a = .error e := by
  cases x <;> simp [bind, Except.bind]

theorem map_eq_ok_iff
    {x : Except ε α} {f : α → β} {b : β} :
    x.map f = .ok b ↔ ∃ a, x = .ok a ∧ f a = b := by
  cases x <;> simp [Except.map]

theorem map_eq_error_iff
    {x : Except ε α} {f : α → β} {e : ε} :
    x.map f = .error e ↔ x = .error e := by
  cases x <;> simp [Except.map]

/-- What holds at first and is kept by every step holds at last. -/
theorem foldlM_invariant
    {f : β → α → Except ε β} {P : β → Prop} {xs : List α} {b b' : β}
    (step : ∀ x ∈ xs, ∀ c c', P c → f c x = .ok c' → P c')
    (hb : P b)
    (h : xs.foldlM f b = .ok b') :
    P b' := by
  induction xs generalizing b with
  | nil =>
      have hsame : b = b' := by simpa [pure, Except.pure] using h
      rw [← hsame]
      exact hb
  | cons x xs ih =>
      rw [List.foldlM_cons, bind_eq_ok_iff] at h
      obtain ⟨c, hc, h⟩ := h
      exact ih (fun y hy => step y (List.mem_cons_of_mem x hy)) (step x (by simp) b c hb hc) h

/-- A list is answered element by element. -/
theorem mapM_eq_ok_cons_iff
    {f : α → Except ε β} {x : α} {xs : List α} {ys : List β} :
    (x :: xs).mapM f = .ok ys ↔
      ∃ b bs, f x = .ok b ∧ xs.mapM f = .ok bs ∧ ys = b :: bs := by
  simp only [List.mapM_cons, bind_eq_ok_iff, pure, Except.pure, Except.ok.injEq]
  constructor
  · rintro ⟨b, hb, bs, hbs, rfl⟩
    exact ⟨b, bs, hb, hbs, rfl⟩
  · rintro ⟨b, bs, hb, hbs, rfl⟩
    exact ⟨b, hb, bs, hbs, rfl⟩

/-- A list is answered by a list of the answers of its elements. -/
theorem mapM_eq_ok_iff
    {f : α → Except ε β} {xs : List α} {bs : List β} :
    xs.mapM f = .ok bs ↔ List.Forall₂ (fun x b => f x = .ok b) xs bs := by
  induction xs generalizing bs with
  | nil => simp [pure, Except.pure, eq_comm]
  | cons x xs ih =>
      rw [mapM_eq_ok_cons_iff, List.forall₂_cons_left_iff]
      simp only [ih]

/-- A list in two parts is answered part by part. -/
theorem mapM_append_eq_ok_iff
    {f : α → Except ε β} {xs ys : List α} {bs : List β} :
    (xs ++ ys).mapM f = .ok bs ↔
      ∃ as cs, xs.mapM f = .ok as ∧ ys.mapM f = .ok cs ∧ bs = as ++ cs := by
  simp only [List.mapM_append, bind_eq_ok_iff, pure, Except.pure, Except.ok.injEq]
  constructor
  · rintro ⟨as, has, cs, hcs, rfl⟩
    exact ⟨as, cs, has, hcs, rfl⟩
  · rintro ⟨as, cs, has, hcs, rfl⟩
    exact ⟨as, has, cs, hcs, rfl⟩

/-- A list is answered if each of its elements is. -/
theorem exists_mapM_eq_ok
    {f : α → Except ε β} {xs : List α}
    (h : ∀ x ∈ xs, ∃ b, f x = .ok b) :
    ∃ bs, xs.mapM f = .ok bs := by
  induction xs with
  | nil => exact ⟨[], rfl⟩
  | cons x xs ih =>
      obtain ⟨b, hb⟩ := h x (by simp)
      obtain ⟨bs, hbs⟩ := ih fun y hy => h y (List.mem_cons_of_mem x hy)
      exact ⟨b :: bs, mapM_eq_ok_cons_iff.2 ⟨b, bs, hb, hbs, rfl⟩⟩

theorem map_eq_bind
    (x : Except ε α) (f : α → β) :
    x.map f = (x >>= fun a => .ok (f a)) := by
  cases x <;> rfl

theorem map_bind_eq
    {γ : Type} (x : Except ε α) (f : α → Except ε β) (g : β → γ) :
    (x >>= f).map g = (x >>= fun a => (f a).map g) := by
  cases x <;> rfl

/-- Computations agree that agree on what their first step answers. -/
theorem bind_congr_ok
    {x : Except ε α} {f g : α → Except ε β}
    (h : ∀ a, x = .ok a → f a = g a) :
    (x >>= f) = (x >>= g) := by
  cases x with
  | error e => rfl
  | ok a => exact h a rfl

/-- A list has as many answers as elements. -/
theorem length_of_mapM_eq_ok
    {f : α → Except ε β} {xs : List α} {bs : List β}
    (h : xs.mapM f = .ok bs) :
    bs.length = xs.length := by
  induction xs generalizing bs with
  | nil =>
      have hnil : bs = [] := by simpa [pure, Except.pure, eq_comm] using h
      rw [hnil]
      rfl
  | cons x xs ih =>
      obtain ⟨c, cs, _, hcs, rfl⟩ := mapM_eq_ok_cons_iff.1 h
      rw [List.length_cons, List.length_cons, ih hcs]

/-- A list stops at one of its elements. -/
theorem exists_of_mapM_eq_error
    {f : α → Except ε β} {e : ε} {xs : List α}
    (h : xs.mapM f = .error e) :
    ∃ x ∈ xs, f x = .error e := by
  induction xs with
  | nil => simp [pure, Except.pure] at h
  | cons x xs ih =>
      simp only [List.mapM_cons, bind_eq_error_iff, pure, Except.pure] at h
      rcases h with h | ⟨b, _, h | ⟨bs, _, h⟩⟩
      · exact ⟨x, by simp, h⟩
      · obtain ⟨y, hy, h⟩ := ih h
        exact ⟨y, List.mem_cons_of_mem x hy, h⟩
      · cases h

/-- A list stops at the first of its elements that stops, if it is known at which they do. -/
theorem mapM_eq_error_iff
    {f : α → Except ε β} {fault? : α → Option ε} {xs : List α} {e : ε}
    (h : ∀ x ∈ xs, ∀ e, f x = .error e ↔ fault? x = some e) :
    xs.mapM f = .error e ↔ xs.findSome? fault? = some e := by
  induction xs with
  | nil => simp [pure, Except.pure]
  | cons x xs ih =>
      have hrest := ih fun y hy => h y (List.mem_cons_of_mem x hy)
      rw [List.mapM_cons, List.findSome?_cons]
      cases hx : f x with
      | error d =>
          have hfault := (h x (by simp) d).1 hx
          simp [hfault, bind, Except.bind]
      | ok b =>
          have hnone : fault? x = none := by
            refine Option.eq_none_iff_forall_ne_some.2 fun d hd => ?_
            have hstop := (h x (by simp) d).2 hd
            rw [hx] at hstop
            cases hstop
          rw [hnone, ok_bind_eq, bind_eq_error_iff]
          dsimp only
          rw [← hrest]
          constructor
          · rintro (hstop | ⟨_, _, hstop⟩)
            · exact hstop
            · cases hstop
          · exact Or.inl

/-- A list is answered by the answers of its elements. -/
theorem mem_of_mapM_eq_ok
    {f : α → Except ε β} {b : β} {xs : List α} {bs : List β}
    (h : xs.mapM f = .ok bs) (hb : b ∈ bs) :
    ∃ x ∈ xs, f x = .ok b := by
  induction xs generalizing bs with
  | nil =>
      have hnil : bs = [] := by simpa [pure, Except.pure, eq_comm] using h
      simp [hnil] at hb
  | cons x xs ih =>
      obtain ⟨c, cs, hc, hcs, rfl⟩ := mapM_eq_ok_cons_iff.1 h
      rcases List.mem_cons.mp hb with rfl | hb
      · exact ⟨x, by simp, hc⟩
      · obtain ⟨y, hy, hyb⟩ := ih hcs hb
        exact ⟨y, List.mem_cons_of_mem x hy, hyb⟩

/-- The answer of an element is among the answers of its list. -/
theorem mem_answers_of_mapM_eq_ok
    {f : α → Except ε β} {x : α} {b : β} {xs : List α} {bs : List β}
    (h : xs.mapM f = .ok bs) (hx : x ∈ xs) (hb : f x = .ok b) :
    b ∈ bs := by
  induction xs generalizing bs with
  | nil => cases hx
  | cons y xs ih =>
      obtain ⟨c, cs, hc, hcs, rfl⟩ := mapM_eq_ok_cons_iff.1 h
      rcases List.mem_cons.mp hx with rfl | hx
      · cases hb.symm.trans hc
        simp
      · exact List.mem_cons_of_mem c (ih hcs hx)

/-- If a list is answered, then so is each of its elements. -/
theorem exists_answer_of_mem
    {f : α → Except ε β} {xs : List α} {x : α} {bs : List β}
    (h : xs.mapM f = .ok bs) (hx : x ∈ xs) :
    ∃ b, f x = .ok b := by
  induction xs generalizing bs with
  | nil => cases hx
  | cons y xs ih =>
      obtain ⟨b, cs, hb, hcs, _⟩ := mapM_eq_ok_cons_iff.1 h
      rcases List.mem_cons.1 hx with rfl | hx
      · exact ⟨b, hb⟩
      · exact ih hcs hx

/-- A list stops as one of its elements does, if no other element stops otherwise. -/
theorem mapM_eq_error_of_mem
    {f : α → Except ε β} {xs : List α} {x : α} {e : ε}
    (hx : x ∈ xs) (h : f x = .error e)
    (only : ∀ y ∈ xs, ∀ e', f y = .error e' → e' = e) :
    xs.mapM f = .error e := by
  cases hall : xs.mapM f with
  | ok bs =>
      obtain ⟨b, hb⟩ := exists_answer_of_mem hall hx
      rw [h] at hb
      cases hb
  | error e' =>
      obtain ⟨y, hy, hstop⟩ := exists_of_mapM_eq_error hall
      rw [only y hy e' hstop]

/-- A choice among elements that keep their keys is the choice among the answers. -/
theorem mapM_filter_of_key
    {κ : Type} {f : α → Except ε β} {key : α → κ} {key' : β → κ} {xs : List α} {bs : List β}
    (p : κ → Bool) (keeps : ∀ x b, f x = .ok b → key' b = key x)
    (h : xs.mapM f = .ok bs) :
    (xs.filter fun x => p (key x)).mapM f = .ok (bs.filter fun b => p (key' b)) := by
  induction xs generalizing bs with
  | nil =>
      cases h
      rfl
  | cons x xs ih =>
      obtain ⟨b, cs, hb, hcs, rfl⟩ := mapM_eq_ok_cons_iff.1 h
      rw [List.filter_cons, List.filter_cons, keeps x b hb]
      split
      · exact mapM_eq_ok_cons_iff.2 ⟨b, _, hb, ih hcs, rfl⟩
      · exact ih hcs

/-- What is answered can be evaluated, though failures cannot be compared. -/
theorem eq_ok_of_toOption
    {x : Except ε α} {a : α}
    (h : x.toOption = some a) :
    x = .ok a := by
  cases x with
  | error e => cases h
  | ok b =>
      cases h
      rfl

end Sequences

section Checks

theorem require_eq_ok_iff
    {p : Prop} [Decidable p] {fault : Fault} {u : Unit} :
    require p fault = .ok u ↔ p := by
  unfold require
  split <;> simp_all

theorem require_eq_error_iff
    {p : Prop} [Decidable p] {fault e : Fault} :
    require p fault = .error e ↔ ¬ p ∧ fault = e := by
  unfold require
  split <;> simp_all

theorem checkRange_eq_ok_iff
    {ns : List Int} {u : Unit} :
    checkRange ns = .ok u ↔ ∀ n ∈ ns, Number.InRange n := by
  unfold checkRange
  split <;> simp_all

theorem checkRange_eq_error_iff
    {ns : List Int} {e : Fault} :
    checkRange ns = .error e ↔
      (∃ n ∈ ns, ¬ Number.InRange n) ∧ Fault.outOfRange = e := by
  unfold checkRange
  split <;> simp_all

/-- Integers in the stored range do not matter to the check of others. -/
theorem checkRange_append_of_inRange
    {ns ms : List Int}
    (h : ∀ m ∈ ms, Number.InRange m) :
    checkRange (ns ++ ms) = checkRange ns := by
  have hms : (ms.all fun m => Number.InRange m) = true := by simpa using h
  simp [checkRange, List.all_append, hms]

theorem toStorable_eq_ok_iff
    {w : Wide} {s : String} :
    w.toStorable = .ok s ↔ w = Wide.ofText s := by
  unfold Wide.toStorable
  rw [← Wide.text?_eq_some_iff]
  cases w.text? <;> simp

theorem toStorable_eq_error_iff
    {w : Wide} {e : Fault} :
    w.toStorable = .error e ↔ w.text? = none ∧ Fault.unstorable w = e := by
  unfold Wide.toStorable
  cases w.text? <;> simp

end Checks

section Causes

variable {F : Fault → Prop} {α β : Type}

/-- Whatever a computation stops for is a fault of a given sort. -/
def StopsWithin (F : Fault → Prop) (x : Except Fault α) : Prop :=
  ∀ e, x = .error e → F e

theorem stopsWithin_ok (a : α) : StopsWithin F (.ok a) := by
  intro e h
  cases h

theorem StopsWithin.bind
    {x : Except Fault α} {f : α → Except Fault β}
    (hx : StopsWithin F x)
    (hf : ∀ a, x = .ok a → StopsWithin F (f a)) :
    StopsWithin F (x >>= f) := by
  intro e h
  rcases bind_eq_error_iff.1 h with h | ⟨a, ha, h⟩
  · exact hx e h
  · exact hf a ha e h

theorem StopsWithin.map
    {x : Except Fault α}
    (hx : StopsWithin F x)
    (f : α → β) :
    StopsWithin F (x.map f) :=
  fun e h => hx e (map_eq_error_iff.1 h)

theorem StopsWithin.mapM
    {f : α → Except Fault β} {xs : List α}
    (h : ∀ x ∈ xs, StopsWithin F (f x)) :
    StopsWithin F (xs.mapM f) := by
  intro e he
  obtain ⟨x, hx, hxe⟩ := exists_of_mapM_eq_error he
  exact h x hx e hxe

theorem StopsWithin.option_mapM
    {f : α → Except Fault β} {x? : Option α}
    (h : ∀ x ∈ x?, StopsWithin F (f x)) :
    StopsWithin F (x?.mapM f) := by
  cases x? with
  | none => exact stopsWithin_ok none
  | some x =>
      refine (h x rfl).bind fun b _ => ?_
      exact stopsWithin_ok (some b)

theorem StopsWithin.foldlM
    {f : β → α → Except Fault β} {xs : List α}
    (h : ∀ x ∈ xs, ∀ b, StopsWithin F (f b x)) :
    ∀ b, StopsWithin F (xs.foldlM f b) := by
  induction xs with
  | nil => exact stopsWithin_ok
  | cons x xs ih =>
      intro b
      rw [List.foldlM_cons]
      exact (h x (by simp) b).bind fun c _ =>
        ih (fun y hy => h y (List.mem_cons_of_mem x hy)) c

theorem stopsWithin_require
    {p : Prop} [Decidable p] {fault : Fault}
    (h : F fault) :
    StopsWithin F (require p fault) := by
  intro e he
  exact (require_eq_error_iff.1 he).2 ▸ h

theorem stopsWithin_checkRange
    {ns : List Int}
    (h : F .outOfRange) :
    StopsWithin F (checkRange ns) := by
  intro e he
  exact (checkRange_eq_error_iff.1 he).2 ▸ h

theorem stopsWithin_toStorable
    {w : Wide}
    (h : F (.unstorable w)) :
    StopsWithin F w.toStorable := by
  intro e he
  exact (toStorable_eq_error_iff.1 he).2 ▸ h

theorem stopsWithin_patternOf
    {criterion? : Option Wide}
    (h : ∀ w, F (.unstorable w)) :
    StopsWithin F (patternOf criterion?) :=
  StopsWithin.option_mapM fun _ _ => stopsWithin_toStorable (h _)

theorem stopsWithin_checkSearch
    {pattern? : Option String} {rows : List α}
    (h : F .longPattern) :
    StopsWithin F (checkSearch pattern? rows) := by
  cases pattern? with
  | none => exact stopsWithin_ok ()
  | some pattern => exact stopsWithin_require h

end Causes

end CardCatalog
