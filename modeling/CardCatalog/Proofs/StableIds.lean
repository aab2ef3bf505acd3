import CardCatalog.Proofs.Room

/-!
# Ids that stay

Enrolling a candidate answers the first row that holds its key.  Rows with the key may be
there more than once, so the answer could change when a row before the first one takes the
key.  No operation lets that happen: a row takes a key only if nobody else holds it, if it is
added behind all others, or if the first other holder goes at once (`Table.Rekeyed`).

Results: the first holder of a key stays the first as long as it keeps the key
(`firstId?_after`), so enrolling the key again answers the same id, and enrolling another key
does not (`enrol_first_and_stable`).
-/

namespace CardCatalog

open Calendar (Date)
open Text (Wide)

section Keys

/-- A stored key as it is submitted. -/
def NaturalKey.wide (key : NaturalKey String) : NaturalKey Wide :=
  ⟨key.name, key.link, key.manual⟩

theorem NaturalKey.wide_inj
    {a b : NaturalKey String} :
    a.wide = b.wide ↔ a = b := by
  rcases a with ⟨name, link, manual⟩
  rcases b with ⟨name', link', manual'⟩
  simp [wide, Wide.ofText_inj]

/-- A candidate can be stored under a key exactly if that is the key it is submitted with. -/
theorem Candidate.exists_toStorable_iff
    {c : Candidate Wide} {key : NaturalKey String} :
    (∃ c', c.toStorable = .ok c' ∧ c'.key = key) ↔ c.key = key.wide := by
  rcases c with ⟨name, link?, manual?⟩
  rcases key with ⟨name', link', manual'⟩
  unfold toStorable
  simp only [bind_eq_ok_iff, toStorable_eq_ok_iff, pure, Except.pure, Except.ok.injEq]
  cases link? with
  | none =>
      constructor
      · rintro ⟨_, ⟨_, rfl, _, hlink, rfl⟩, hkey⟩
        cases hlink
        cases hkey
        rfl
      · intro hkey
        obtain ⟨hname, hlink, rfl⟩ := NaturalKey.mk.inj hkey
        have hempty : Wide.ofText "" = Wide.ofText link' := hlink
        cases Wide.ofText_inj.1 hempty
        exact ⟨_, ⟨name', hname, none, rfl, rfl⟩, rfl⟩
  | some link =>
      constructor
      · rintro ⟨_, ⟨_, rfl, _, hlink, rfl⟩, hkey⟩
        obtain ⟨_, hstored, rfl⟩ := map_eq_ok_iff.1 hlink
        cases toStorable_eq_ok_iff.1 hstored
        cases hkey
        rfl
      · intro hkey
        obtain ⟨hname, hlink, rfl⟩ := NaturalKey.mk.inj hkey
        have hstored : (some link).mapM Wide.toStorable = .ok (some link') :=
          map_eq_ok_iff.2 ⟨link', toStorable_eq_ok_iff.2 hlink, rfl⟩
        exact ⟨_, ⟨name', hname, some link', hstored, rfl⟩, rfl⟩

end Keys

namespace Table

section FirstRows

variable {α : Type} {t t' : Table Int α} {id : Int} {a : α}

/-- The first row that passes a test has the smallest id of those that do. -/
theorem le_of_find?_rows
    {p : Int × α → Bool} {e e' : Int × α}
    (h : t.rows.find? p = some e)
    (he' : e' ∈ t.rows) (hp : p e' = true) :
    e.1 ≤ e'.1 := by
  obtain ⟨_, before, after, hrows, hbefore⟩ := List.find?_eq_some_iff_append.1 h
  have hasc := t.ascending
  rw [hrows, List.pairwise_append, List.pairwise_cons] at hasc
  obtain ⟨_, ⟨hafter, _⟩, _⟩ := hasc
  rw [hrows, List.mem_append, List.mem_cons] at he'
  rcases he' with he' | rfl | he'
  · have := hbefore e' he'
    simp [hp] at this
  · exact Int.le_refl _
  · have := Int.compare_eq_lt.1 (hafter e' he')
    omega

/-- The next id is one, or the one after the largest. -/
theorem nextId_eq_last
    (t : Table Int α) :
    t.rows = [] ∧ t.nextId = 1 ∨
      ∃ last ∈ t.rows, (∀ e ∈ t.rows, e.1 ≤ last.1) ∧ t.nextId = last.1 + 1 := by
  rcases List.eq_nil_or_concat t.rows with hnil | ⟨rest, last, hrows⟩
  · exact Or.inl ⟨hnil, by simp [nextId, hnil]⟩
  · have hnext : t.nextId = last.1 + 1 := by
      simp [nextId, hrows]
    refine Or.inr ⟨last, by simp [hrows], fun e he => ?_, hnext⟩
    have := lt_nextId he
    omega

variable [DecidableEq α]

/-- The id of a value is the smallest one of the rows that hold it. -/
theorem firstId?_eq_some_iff :
    t.firstId? a = some id ↔
      t.get? id = some a ∧ ∀ j, t.get? j = some a → id ≤ j := by
  have hmin {i : Int} (h : t.firstId? a = some i) : ∀ j, t.get? j = some a → i ≤ j := by
    intro j hj
    obtain ⟨e, he, rfl⟩ := Option.map_eq_some_iff.1 h
    exact le_of_find?_rows he (t.get?_eq_some_iff.1 hj) (by simp)
  constructor
  · intro h
    exact ⟨get?_of_firstId? h, hmin h⟩
  · rintro ⟨hget, hle⟩
    have hmem : a ∈ t.values := List.mem_map.2 ⟨(id, a), t.get?_eq_some_iff.1 hget, rfl⟩
    obtain ⟨i, hi⟩ := exists_firstId?_iff.2 hmem
    have h₁ := hmin hi id hget
    have h₂ := hle i (get?_of_firstId? hi)
    rw [hi, Int.le_antisymm h₁ h₂]

/-- What an operation does to the values of a table: it enrols some; it takes a row away; a
row takes a value that nobody else holds; or it takes the value of the first other row that
holds it, which goes. -/
inductive Rekeyed (t : Table Int α) : Table Int α → Prop
  | enrolled (as : List α) : Rekeyed t (t.enrolAll as)
  | erased (id : Int) : Rekeyed t (t.erase id)
  | renamed
      (id : Int) (a : α)
      (free : ∀ j, t.get? j = some a → j = id) :
      Rekeyed t (t.put id a)
  | absorbed
      (id other : Int) (a : α)
      (held : t.get? other = some a)
      (first : ∀ j, t.get? j = some a → j ≠ id → other ≤ j) :
      Rekeyed t ((t.erase other).put id a)

theorem Rekeyed.refl (t : Table Int α) : t.Rekeyed t :=
  .enrolled []

/-- The first row that holds a value stays the first, if it keeps the value. -/
theorem Rekeyed.firstId?_eq
    (h : t.Rekeyed t')
    (hid : t.firstId? a = some id)
    (stays : t'.get? id = some a) :
    t'.firstId? a = some id := by
  obtain ⟨hget, hle⟩ := firstId?_eq_some_iff.1 hid
  refine firstId?_eq_some_iff.2 ⟨stays, fun j hj => ?_⟩
  cases h with
  | enrolled as =>
      have hfirst := firstId?_enrolAll_of_some as hid
      exact (firstId?_eq_some_iff.1 hfirst).2 j hj
  | erased i =>
      refine hle j ?_
      rw [erase, get?_filter, Option.filter_eq_some_iff] at hj
      exact hj.1
  | renamed i b free =>
      rw [get?_put] at hj
      split at hj
      · -- the row that takes the value must be the one that has held it
        cases hj
        have hi := free id hget
        omega
      · exact hle j hj
  | absorbed i other b held first =>
      rw [get?_put, erase, get?_filter] at hj stays
      split at hj
      · -- were the holder not the row that takes the value, it would be the one that goes
        cases hj
        split at stays
        · omega
        · rename_i hne
          have h₁ := first id hget hne
          have h₂ := hle other held
          have hgone := (Option.filter_eq_some_iff.1 stays).2
          simp only [decide_eq_true_eq] at hgone
          omega
      · exact hle j (Option.filter_eq_some_iff.1 hj).1

end FirstRows

end Table

namespace Store

section Steps

variable {s s' : Store} {k : Kind} {today : Date}

/-- The holder of a key is the first row that holds it, of those that are not excluded. -/
theorem le_of_holder?_eq_some
    {key : NaturalKey String} {excluded? : Option Int} {row : Lookup}
    (h : s.holder? k key excluded? = some row)
    (j : Int) (hj : (s.keys k).get? j = some key) (hne : some j ≠ excluded?) :
    row.id ≤ j := by
  unfold holder? lookupRows at h
  rw [List.find?_map] at h
  obtain ⟨e, he, rfl⟩ := Option.map_eq_some_iff.1 h
  exact Table.le_of_find?_rows he ((s.keys k).get?_eq_some_iff.1 hj) (by simp [hne])

theorem rekeyed_of_dropLookup
    {k' : Kind} {id : Int}
    (h : s.dropLookup k' id = .ok s') (k : Kind) :
    (s.keys k).Rekeyed (s'.keys k) := by
  obtain ⟨_, rfl⟩ := (s.dropLookup_eq_ok_iff k' id).1 h
  rw [keys_without]
  split
  · rename_i hk
    rw [hk]
    exact .erased id
  · exact .refl _

theorem rekeyed_of_amend
    {k' : Kind} {id : Int} {p : Patch Wide} {row? : Option Lookup}
    (h : s.amend k' id p = .ok (row?, s')) (k : Kind) :
    (s.keys k).Rekeyed (s'.keys k) := by
  cases amended_of_amend h with
  | absent _ => exact .refl _
  | renamed _ _ free =>
      rw [keys_setKeys]
      split
      · rename_i hk
        rw [hk]
        refine .renamed id _ fun j hj => ?_
        have hheld := holder?_eq_none_iff.1 free _ ((s.keys k').get?_eq_some_iff.1 hj) rfl
        exact Option.some.inj hheld
      · exact .refl _
  | @absorbed row other _ t _ _ held _ dropped =>
      have hdropped := (s.dropLookup_eq_ok_iff k' other.id).1 dropped
      obtain ⟨hget, _, _⟩ := get?_of_holder?_eq_some held
      rw [keys_setKeys, hdropped.2]
      split
      · rename_i hk
        rw [hk, keys_without, if_pos rfl]
        refine .absorbed id other.id _ hget fun j hj hne => ?_
        exact le_of_holder?_eq_some held j hj fun e => hne (Option.some.inj e)
      · rename_i hk
        rw [keys_without, if_neg hk]
        exact .refl _
  | yielded _ _ _ _ dropped => exact rekeyed_of_dropLookup dropped k

theorem rekeyed_of_remove
    {k' : Kind} {id : Int} {b : Bool}
    (h : s.remove k' id = .ok (b, s')) (k : Kind) :
    (s.keys k).Rekeyed (s'.keys k) := by
  cases removed_of_remove h with
  | absent _ => exact .refl _
  | gone _ _ dropped => exact rekeyed_of_dropLookup dropped k

/-- What every operation does to the keys of each kind. -/
theorem rekeyed_of_run
    {op : Operation} {a : Answer}
    (h : op.run today s = .ok (a, s')) (k : Kind) :
    (s.keys k).Rekeyed (s'.keys k) := by
  have hsame (hkeys : s'.keys k = s.keys k) : (s.keys k).Rekeyed (s'.keys k) := by
    rw [hkeys]
    exact .refl _
  have henrolled {named : List (NaturalKey String)}
      (hkeys : s'.keys k = (s.keys k).enrolAll named) : (s.keys k).Rekeyed (s'.keys k) := by
    rw [hkeys]
    exact .enrolled named
  cases ran_of_run h with
  | read _ _ => exact hsame rfl
  | @enrol k' _ c _ =>
      rw [enrol_eq, keys_setKeys]
      split
      · rename_i hk
        rw [hk]
        exact .enrolled [c.key]
      · exact .refl _
  | amend amended => exact rekeyed_of_amend amended k
  | remove removed => exact rekeyed_of_remove removed k
  | createRecord _ created => exact hsame (keys_of_createRecord created k)
  | reviseRecord _ revised => exact hsame (keys_of_reviseRecord revised k)
  | addLinks _ added => exact hsame (keys_of_addLinks added k)
  | deleteRecord _ => exact hsame (keys_deleteRecord s _ k)
  | submit _ submitted =>
      rcases enrolled_of_submit submitted with rfl | ⟨_, _, _, _, hkeys⟩
      · exact hsame rfl
      · exact henrolled (hkeys k)
  | resubmit _ resubmitted =>
      rcases enrolled_of_resubmit resubmitted with rfl | ⟨_, _, _, _, hkeys⟩
      · exact hsame rfl
      · exact henrolled (hkeys k)

/-- An operation keeps the first holder of a key the first, whether it answers or stops. -/
theorem firstId?_store
    {op : Operation} {key : NaturalKey String} {id : Int}
    (h : (s.keys k).firstId? key = some id)
    (stays : (((op.run today).store s).keys k).get? id = some key) :
    (((op.run today).store s).keys k).firstId? key = some id := by
  revert stays
  refine Action.store_cases (op.run today) s (fun _ _ hrun stays => ?_) fun _ _ _ => h
  exact (rekeyed_of_run hrun k).firstId?_eq h stays

end Steps

section Runs

/-- A row has a key in every store that a run passes through. -/
def KeepsKey
    (s : Store) (steps : List (Date × Operation)) (k : Kind) (id : Int) (key : NaturalKey String) :
    Prop :=
  ∀ begun, begun <+: steps → ((s.after begun).keys k).get? id = some key

section Passing

variable {s : Store} {step : Date × Operation} {steps : List (Date × Operation)}
variable {k : Kind} {id : Int} {key : NaturalKey String}

theorem keepsKey_nil_iff :
    s.KeepsKey [] k id key ↔ (s.keys k).get? id = some key := by
  constructor
  · intro h
    exact h [] List.nil_prefix
  · intro h begun hbegun
    rw [List.prefix_nil.1 hbegun]
    exact h

theorem keepsKey_cons_iff :
    s.KeepsKey (step :: steps) k id key ↔
      (s.keys k).get? id = some key ∧
        ((step.2.run step.1).store s).KeepsKey steps k id key := by
  constructor
  · intro h
    refine ⟨h [] List.nil_prefix, fun begun hbegun => ?_⟩
    exact h (step :: begun) (List.cons_prefix_cons.2 ⟨rfl, hbegun⟩)
  · rintro ⟨hfirst, hrest⟩ begun hbegun
    cases begun with
    | nil => exact hfirst
    | cons step' begun =>
        obtain ⟨rfl, hrun⟩ := List.cons_prefix_cons.1 hbegun
        exact hrest begun hrun

instance decidableKeepsKey :
    ∀ (s : Store) (steps : List (Date × Operation)), Decidable (s.KeepsKey steps k id key)
  | _, [] => decidable_of_iff _ keepsKey_nil_iff.symm
  | s, step :: steps =>
      have := decidableKeepsKey ((step.2.run step.1).store s) steps
      decidable_of_iff _ keepsKey_cons_iff.symm

end Passing

/-- The first holder of a key is the first after every run along which it keeps the key. -/
theorem firstId?_after
    {s : Store} {steps : List (Date × Operation)} {k : Kind} {id : Int} {key : NaturalKey String}
    (h : (s.keys k).firstId? key = some id)
    (keeps : s.KeepsKey steps k id key) :
    ((s.after steps).keys k).firstId? key = some id := by
  induction steps generalizing s with
  | nil => exact h
  | cons step steps ih =>
      obtain ⟨_, hrest⟩ := keepsKey_cons_iff.1 keeps
      exact ih (firstId?_store h (hrest [] List.nil_prefix)) hrest

end Runs

section Enrolment

variable {s : Store} {k : Kind} {key : NaturalKey String} {id : Int}

/-- What becomes of a key that is enrolled: it is held, and the first holder is answered; or
it is added behind all other rows. -/
inductive Enrolled (s : Store) (k : Kind) (key : NaturalKey String) (id : Int) : Store → Prop
  | held
      (found : (s.keys k).get? id = some key)
      (first : ∀ j, (s.keys k).get? j = some key → id ≤ j) :
      Enrolled s k key id s
  | added
      {t : Store}
      (free : ∀ j, (s.keys k).get? j ≠ some key)
      (next : (s.keys k).rows = [] ∧ id = 1 ∨
        ∃ last ∈ (s.keys k).rows, (∀ e ∈ (s.keys k).rows, e.1 ≤ last.1) ∧ id = last.1 + 1)
      (rows : (t.keys k).rows = (s.keys k).rows ++ [(id, key)])
      (others : ∀ k', k' ≠ k → t.keys k' = s.keys k')
      (records : t.records = s.records)
      (attachments : t.attachments = s.attachments)
      (links : t.links = s.links) :
      Enrolled s k key id t

theorem enrolled_enrol (s : Store) (k : Kind) (c : Candidate String) :
    s.Enrolled k c.key (s.enrol k c).1 (s.enrol k c).2 := by
  rw [enrol_eq]
  cases hfirst : (s.keys k).firstId? c.key with
  | some id =>
      obtain ⟨hget, hle⟩ := Table.firstId?_eq_some_iff.1 hfirst
      rw [Table.idFor_of_firstId? hfirst, Table.enrol, hfirst, Option.isSome_some, if_pos rfl,
        setKeys_keys]
      exact .held hget hle
  | none =>
      have hfree : ∀ j, (s.keys k).get? j ≠ some c.key := by
        intro j hj
        refine Table.firstId?_eq_none_iff.1 hfirst (List.mem_map.2 ⟨(j, c.key), ?_, rfl⟩)
        exact (s.keys k).get?_eq_some_iff.1 hj
      have hid : (s.keys k).idFor c.key = (s.keys k).nextId := by
        rw [Table.idFor, hfirst, Option.getD_none]
      have hadd : (s.keys k).enrol c.key = (s.keys k).push c.key := by
        simp [Table.enrol, hfirst]
      rw [hid, hadd]
      refine .added hfree (s.keys k).nextId_eq_last (by simp) (fun k' hk => by simp [hk]) rfl rfl rfl

/-- An enrolled key has the id that was answered. -/
theorem Enrolled.firstId?_eq
    {t : Store}
    (h : s.Enrolled k key id t) :
    (t.keys k).firstId? key = some id := by
  refine Table.firstId?_eq_some_iff.2 ?_
  cases h with
  | held found first => exact ⟨found, first⟩
  | added free _ rows _ _ _ _ =>
      have hmem {j : Int} (hj : (t.keys k).get? j = some key) : j = id := by
        have hrow := (t.keys k).get?_eq_some_iff.1 hj
        rw [rows, List.mem_append, List.mem_singleton] at hrow
        rcases hrow with hrow | hrow
        · exact absurd ((s.keys k).get?_eq_some_iff.2 hrow) (free j)
        · exact (Prod.mk.inj hrow).1
      refine ⟨(t.keys k).get?_eq_some_iff.2 (by simp [rows]), fun j hj => ?_⟩
      exact Int.le_of_eq (hmem hj).symm

theorem run_enrol_eq
    {c : Candidate Wide} {c' : Candidate String}
    (today : Date) (s : Store) (k : Kind)
    (h : c.toStorable = .ok c') :
    Operation.run today (.enrol k c) s = .ok (.lookupId (s.enrol k c').1, (s.enrol k c').2) := by
  show c.toStorable.map _ = _
  rw [h]
  rfl

/-- The id of a key is answered for the candidates that have this key, and for no others. -/
theorem answer_enrol_eq_iff
    (h : (s.keys k).firstId? key = some id) (today : Date) (c : Candidate Wide) :
    (Operation.run today (.enrol k c)).answer s = .ok (.lookupId id) ↔ c.key = key.wide := by
  rw [← Candidate.exists_toStorable_iff]
  constructor
  · intro hanswer
    obtain ⟨⟨a, t⟩, hrun, rfl⟩ := map_eq_ok_iff.1 hanswer
    obtain ⟨c', hc', hrun⟩ := map_eq_ok_iff.1 hrun
    refine ⟨c', hc', ?_⟩
    -- the answer is the first row that holds the candidate's key afterwards
    have hid : (s.enrol k c').1 = id := Answer.lookupId.inj (Prod.mk.inj hrun).1
    have hafter := (s.enrolled_enrol k c').firstId?_eq
    rw [hid, enrol_eq, keys_setKeys, if_pos rfl] at hafter
    have hheld := Table.get?_enrol_of_some c'.key (Table.get?_of_firstId? h)
    rw [Table.get?_of_firstId? hafter] at hheld
    exact Option.some.inj hheld
  · rintro ⟨c', hc', rfl⟩
    unfold Action.answer
    rw [run_enrol_eq today s k hc', enrol_eq, Table.idFor_of_firstId? h]
    rfl

/-- Enrolling a candidate of text answers the first row that holds its key, or adds one behind
all others; and as long as that row keeps the key, it is answered again for the candidates
that have this key, and for no others. -/
theorem enrol_first_and_stable
    (s : Store) (today : Date) (k : Kind) {c : Candidate Wide} {key : NaturalKey String}
    (text : c.key = key.wide) :
    ∃ id t,
      Operation.run today (.enrol k c) s = .ok (.lookupId id, t) ∧
      s.Enrolled k key id t ∧
      ∀ steps, t.KeepsKey steps k id key →
        ∀ day (c' : Candidate Wide),
          (Operation.run day (.enrol k c')).answer (t.after steps) = .ok (.lookupId id) ↔
            c'.key = c.key := by
  obtain ⟨c', hc', rfl⟩ := Candidate.exists_toStorable_iff.2 text
  have henrolled := s.enrolled_enrol k c'
  refine ⟨_, _, run_enrol_eq today s k hc', henrolled, fun steps keeps day c'' => ?_⟩
  rw [answer_enrol_eq_iff (firstId?_after henrolled.firstId?_eq keeps), text]

/-- Of two genres with one name the first is answered, also after the second is gone and others
are added. -/
theorem enrol_repeated_genre :
    let drama : NaturalKey String := ⟨"Drama", "", false⟩
    let s := seeded.setKeys (.attached .genre) ((Table.empty.push drama).push drama)
    let steps :=
      [ (.epoch, .enrol (.attached .genre) { name := "Noir" }),
        (.epoch, .remove (.attached .genre) 2) ]
    ∀ c : Candidate Wide,
      (Operation.run .epoch (.enrol (.attached .genre) c)).answer (s.after steps)
          = .ok (.lookupId 1) ↔
        c.key = drama.wide := by
  intro drama s steps c
  have text : ({ name := "Drama" } : Candidate Wide).key = drama.wide := rfl
  obtain ⟨id, t, hrun, _, hstable⟩ :=
    enrol_first_and_stable s .epoch (.attached .genre) text
  have hfound : Operation.run .epoch (.enrol (.attached .genre) { name := "Drama" }) s
      = .ok (.lookupId 1, s) := rfl
  rw [hfound] at hrun
  cases hrun
  exact hstable steps (by decide) .epoch c

/-- A name with half of a surrogate pair gets no id. -/
theorem enrol_half_stops :
    ¬ ∃ id, (Operation.run .epoch
      (.enrol (.attached .genre) { name := ⟨[.half 0]⟩ })).answer seeded = .ok (.lookupId id) := by
  rintro ⟨id, h⟩
  cases h

end Enrolment

end Store
end CardCatalog
