import CardCatalog.Proofs.ObjectFields
import CardCatalog.Proofs.Spelling
import CardCatalog.Proofs.Stopping
import CardCatalog.Settings.Environment

/-!
# Paths of variables

Variables are found under distinct names in which no capital is left.  Behind the name of its group,
the name of a variable is a path, and the value of the variable is put at its end.  Whatever is put
below a name that has a text does nothing, and what is put below one that has nothing makes an
object there.

Results: the variables of a group are read first and put after (`singleFields_eq`), and what stands
under a name in the end is told by those whose paths begin with it (`get?_putAll`).
-/

namespace CardCatalog

open Text (Code Wide)

namespace Settings

section Variables

/-- What is kept under names in lower case has distinct names, in which no capital is left. -/
structure IsLowered (env : Environment) : Prop where
  distinct : (env.map (·.1)).Nodup
  low : ∀ v ∈ env, ∀ c ∈ v.1.codes, c.IsLow

theorem isLowered_lowerNames (env : Environment) : IsLowered (lowerNames env) := by
  have hstep (found : Environment) (hfound : IsLowered found) :
      IsLowered (env.foldl (fun found v => Json.put found v.1.lower v.2) found) := by
    induction env generalizing found with
    | nil => exact hfound
    | cons v env ih =>
        refine ih _ ⟨Json.nodup_put hfound.distinct, fun x hx => ?_⟩
        rcases Json.mem_of_mem_put hx with hold | rfl
        · exact hfound.low x hold
        · exact fun c hc => Text.isLow_of_mem_lower hc
  exact hstep [] ⟨List.nodup_nil, nofun⟩

theorem isLowered_of_variablesOf
    {env found : Environment}
    (h : variablesOf env = .ok found) :
    IsLowered found := by
  obtain ⟨kept, _, rfl⟩ := map_eq_ok_iff.1 h
  exact isLowered_lowerNames kept

end Variables

section Paths

/-- A name that is not cut is its only part. -/
theorem eq_of_nameParts
    {cs part : List Code}
    (h : nameParts cs = (part, [])) :
    part = cs := by
  induction cs using nameParts.induct generalizing part with
  | case1 cs _ _ _ ih => simp [nameParts] at h
  | case2 c cs hne first rest hparts ih =>
      rw [nameParts, hparts] at h
      · cases h
        rw [ih hparts]
      · exact hne
  | case3 =>
      cases h
      rfl

theorem mem_of_mem_nameParts
    {cs part : List Code} {c : Code}
    (hpart : part ∈ (nameParts cs).1 :: (nameParts cs).2) (hc : c ∈ part) :
    c ∈ cs := by
  induction cs using nameParts.induct generalizing part with
  | case1 cs first rest hparts ih =>
      rw [nameParts, hparts] at hpart
      rw [hparts] at ih
      rcases List.mem_cons.1 hpart with rfl | hpart
      · cases hc
      · exact List.mem_cons_of_mem _ (List.mem_cons_of_mem _ (ih hpart hc))
  | case2 d cs hne first rest hparts ih =>
      rw [nameParts, hparts] at hpart
      · rw [hparts] at ih
        rcases List.mem_cons.1 hpart with rfl | hpart
        · rcases List.mem_cons.1 hc with rfl | hc
          · exact List.mem_cons_self
          · exact List.mem_cons_of_mem _ (ih List.mem_cons_self hc)
        · exact List.mem_cons_of_mem _ (ih (List.mem_cons_of_mem _ hpart) hc)
      · exact hne
  | case3 =>
      rcases List.mem_cons.1 hpart with rfl | hpart
      · exact hc
      · cases hpart

/-- A variable of a group has the name of the group in front, and the parts of its path behind. -/
theorem eq_of_pathIn?
    {group : String} {name : Wide} {path : List Wide}
    (h : pathIn? group name = some path) :
    ∃ cs, name.codes = (Wide.ofText (group ++ "__")).codes ++ cs ∧
      path = ((nameParts cs).1 :: (nameParts cs).2).map Wide.mk := by
  unfold pathIn? at h
  dsimp only at h
  split at h
  · rename_i hstart
    obtain ⟨cs, hcs⟩ := List.isPrefixOf_iff_prefix.1 hstart
    have hlength : (group ++ "__").length = (Wide.ofText (group ++ "__")).codes.length := by
      rw [Wide.ofText, List.length_map, String.length_toList]
    rw [hlength, ← hcs, List.drop_left] at h
    cases h
    exact ⟨cs, hcs.symm, rfl⟩
  · cases h

theorem eq_of_pathIn?_singleton
    {group : String} {name k : Wide}
    (h : pathIn? group name = some [k]) :
    name = Wide.ofText (group ++ "__") ++ k := by
  obtain ⟨cs, hcs, hpath⟩ := eq_of_pathIn? h
  obtain ⟨hk, hrest⟩ := List.cons.inj hpath
  have hpart : nameParts cs = ((nameParts cs).1, []) :=
    Prod.ext rfl (List.map_eq_nil_iff.1 hrest.symm)
  rw [hk, eq_of_nameParts hpart]
  exact congrArg Wide.mk hcs

theorem mem_of_pathIn?
    {group : String} {name k : Wide} {path : List Wide} {c : Code}
    (h : pathIn? group name = some path) (hk : k ∈ path) (hc : c ∈ k.codes) :
    c ∈ name.codes := by
  obtain ⟨cs, hcs, rfl⟩ := eq_of_pathIn? h
  obtain ⟨part, hpart, rfl⟩ := List.mem_map.1 hk
  rw [hcs]
  exact List.mem_append_right _ (mem_of_mem_nameParts hpart hc)

end Paths

section Singles

variable {g : Group}

/-- The variables of the fields of a group, by their paths. -/
def entriesOf (g : Group) (env : Environment) : List (List Wide × Wide) :=
  env.filterMap fun v => (pathIn? g.name v.1).map fun path => (path, v.2)

/-- The value of a variable, at its path. -/
def readEntry (g : Group) (e : List Wide × Wide) : Except Failure (List Wide × Json) :=
  (variableValue g e.1 e.2).map fun j => (e.1, j)

/-- Puts values at the ends of their paths, one after the other. -/
def putAll (fields : List (Wide × Json)) (entries : List (List Wide × Json)) :
    List (Wide × Json) :=
  entries.foldl (fun fields e => putAt fields e.2 e.1) fields

/-- The variables of fields are read first, as far as this can be told from what is left in the
end. -/
theorem singleFields_eq
    (g : Group) (env : Environment) :
    singleFields g env = ((entriesOf g env).mapM (readEntry g)).map (putAll []) := by
  unfold singleFields
  generalize ([] : List (Wide × Json)) = fields
  induction env generalizing fields with
  | nil => rfl
  | cons v env ih =>
      rw [List.foldlM_cons]
      cases hpath : pathIn? g.name v.1 with
      | none =>
          have hentries : entriesOf g (v :: env) = entriesOf g env := by
            simp [entriesOf, hpath]
          rw [hentries]
          exact ih fields
      | some path =>
          have hentries : entriesOf g (v :: env) = (path, v.2) :: entriesOf g env := by
            simp [entriesOf, hpath]
          rw [hentries, List.mapM_cons]
          cases hvalue : variableValue g path v.2 with
          | error e => simp [readEntry, hvalue, Except.map, bind, Except.bind]
          | ok j =>
              have hrest := ih (putAt fields j path)
              simp only [readEntry, hvalue, Except.map, bind, Except.bind] at hrest ⊢
              rw [hrest]
              cases (entriesOf g env).mapM (readEntry g) <;> rfl

/-- What stands under the first name of a path once a value is put at its end. -/
def putUnder (value : Json) : List Wide → Option Json → Option Json
  | [], _ => some value
  | path, none => some (.object (putAt [] value path))
  | path, some (.object inner) => some (.object (putAt inner value path))
  | _, old? => old?

theorem get?_putAt
    (fields : List (Wide × Json)) (value : Json) (name k : Wide) (path : List Wide) :
    Json.get? (putAt fields value (name :: path)) k
      = if k = name then putUnder value path (Json.get? fields name) else Json.get? fields k := by
  cases path with
  | nil => rw [putAt, Json.get?_put, putUnder]
  | cons q path =>
      rw [putAt]
      · split
        · rename_i hnone
          rw [Json.get?_put, hnone, putUnder]
          exact nofun
        · rename_i inner hobject
          rw [Json.get?_put, hobject, putUnder]
          exact nofun
        · rename_i old hother hold
          split
          · rename_i hk
            rw [hk, hold]
            cases old with
            | object inner => exact absurd rfl (hother inner)
            | _ => rfl
          · rfl
      · exact nofun

theorem nodup_putAt
    {fields : List (Wide × Json)}
    (value : Json) (path : List Wide)
    (h : (fields.map (·.1)).Nodup) :
    ((putAt fields value path).map (·.1)).Nodup := by
  unfold putAt
  split
  · exact h
  · exact Json.nodup_put h
  · split
    · exact Json.nodup_put h
    · exact Json.nodup_put h
    · exact h

theorem nodup_putAll
    {fields : List (Wide × Json)}
    (entries : List (List Wide × Json))
    (h : (fields.map (·.1)).Nodup) :
    ((putAll fields entries).map (·.1)).Nodup := by
  induction entries generalizing fields with
  | nil => exact h
  | cons e entries ih => exact ih (nodup_putAt e.2 e.1 h)

/-- Whether a path begins with a name. -/
def BeginsWith (k : Wide) (path : List Wide) : Prop :=
  path.head? = some k

instance (k : Wide) (path : List Wide) : Decidable (BeginsWith k path) :=
  inferInstanceAs (Decidable (_ = _))

/-- What stands under a name in the end is told by the entries whose paths begin with it. -/
theorem get?_putAll
    (fields : List (Wide × Json)) (entries : List (List Wide × Json)) (k : Wide) :
    Json.get? (putAll fields entries) k
      = (entries.filter fun e => BeginsWith k e.1).foldl
          (fun old? e => putUnder e.2 e.1.tail old?) (Json.get? fields k) := by
  induction entries generalizing fields with
  | nil => rfl
  | cons e entries ih =>
      obtain ⟨path, j⟩ := e
      show Json.get? (putAll (putAt fields j path) entries) k = _
      rw [ih]
      cases path with
      | nil =>
          rw [List.filter_cons_of_neg (by simp [BeginsWith]), putAt]
      | cons name path =>
          rw [get?_putAt]
          by_cases hk : k = name
          · rw [if_pos hk, hk, List.filter_cons_of_pos (by simp [BeginsWith])]
            rfl
          · rw [if_neg hk, List.filter_cons_of_neg (by simpa [BeginsWith] using Ne.symm hk)]

/-- Values that are put deeper leave a text as it is. -/
theorem foldl_putUnder_text
    {entries : List (List Wide × Json)}
    (w : Wide) (deep : ∀ e ∈ entries, e.1.tail ≠ []) :
    entries.foldl (fun old? e => putUnder e.2 e.1.tail old?) (some (.text w)) = some (.text w) := by
  induction entries with
  | nil => rfl
  | cons e entries ih =>
      obtain ⟨he, hentries⟩ := List.forall_mem_cons.1 deep
      obtain ⟨q, path, hpath⟩ := List.exists_cons_of_ne_nil he
      rw [List.foldl_cons, hpath]
      exact ih hentries

/-- Values that are put deeper make objects. -/
theorem foldl_putUnder_none
    {entries : List (List Wide × Json)} {old? : Option Json}
    (hold : old? = none ∨ ∃ fields, old? = some (.object fields))
    (deep : ∀ e ∈ entries, e.1.tail ≠ []) :
    entries.foldl (fun old? e => putUnder e.2 e.1.tail old?) old? = none ∨
      ∃ fields, entries.foldl (fun old? e => putUnder e.2 e.1.tail old?) old?
        = some (.object fields) := by
  induction entries generalizing old? with
  | nil => exact hold
  | cons e entries ih =>
      obtain ⟨he, hentries⟩ := List.forall_mem_cons.1 deep
      obtain ⟨q, path, hpath⟩ := List.exists_cons_of_ne_nil he
      rw [List.foldl_cons, hpath]
      refine ih (.inr ?_) hentries
      rcases hold with rfl | ⟨fields, rfl⟩
      · exact ⟨_, rfl⟩
      · exact ⟨_, rfl⟩

end Singles

section Entries

variable {g : Group} {env : Environment} {entries : List (List Wide × Json)} {k : Wide}

theorem mem_entriesOf_iff
    {x : List Wide × Wide} :
    x ∈ entriesOf g env ↔ ∃ v ∈ env, pathIn? g.name v.1 = some x.1 ∧ v.2 = x.2 := by
  unfold entriesOf
  rw [List.mem_filterMap]
  refine exists_congr fun v => and_congr_right fun _ => ?_
  rw [Option.map_eq_some_iff]
  constructor
  · rintro ⟨path, hpath, rfl⟩
    exact ⟨hpath, rfl⟩
  · rintro ⟨hpath, hvalue⟩
    exact ⟨x.1, hpath, Prod.ext rfl hvalue⟩

/-- An entry that is read has the path of a variable. -/
theorem exists_variable_of_mem
    {e : List Wide × Json}
    (h : (entriesOf g env).mapM (readEntry g) = .ok entries) (he : e ∈ entries) :
    ∃ v ∈ env, pathIn? g.name v.1 = some e.1 := by
  obtain ⟨x, hx, hread⟩ := mem_of_mapM_eq_ok h he
  obtain ⟨v, hv, hpath, _⟩ := mem_entriesOf_iff.1 hx
  obtain ⟨j, _, rfl⟩ := map_eq_ok_iff.1 hread
  exact ⟨v, hv, hpath⟩

theorem exists_beginsWith_of_mem_putAll
    {f : Wide × Json}
    (h : f ∈ putAll [] entries) :
    ∃ e ∈ entries, BeginsWith f.1 e.1 := by
  by_contra hnone
  push Not at hnone
  have hfilter : entries.filter (fun e => BeginsWith f.1 e.1) = [] :=
    List.filter_eq_nil_iff.2 fun e he => by simpa using hnone e he
  have hget := get?_putAll [] entries f.1
  rw [hfilter] at hget
  exact Json.get?_eq_none_iff.1 hget f h rfl

/-- No capital is left in the names that the variables of fields put. -/
theorem isLow_of_mem_putAll
    (lowered : IsLowered env)
    (h : (entriesOf g env).mapM (readEntry g) = .ok entries)
    {f : Wide × Json} (hf : f ∈ putAll [] entries) :
    ∀ c ∈ f.1.codes, c.IsLow := by
  intro c hc
  obtain ⟨e, he, hbegins⟩ := exists_beginsWith_of_mem_putAll hf
  obtain ⟨v, hv, hpath⟩ := exists_variable_of_mem h he
  have hmem : f.1 ∈ e.1 := List.mem_of_mem_head? (Option.mem_def.2 hbegins)
  exact lowered.low v hv c (mem_of_pathIn? hpath hmem hc)

/-- Without a variable of its own, a name has nothing but what is put deeper. -/
theorem deep_of_absent
    (habsent : ∀ v ∈ env, pathIn? g.name v.1 ≠ some [k])
    (h : (entriesOf g env).mapM (readEntry g) = .ok entries) :
    ∀ e ∈ entries.filter fun e => BeginsWith k e.1, e.1.tail ≠ [] := by
  intro e he htail
  obtain ⟨hmem, hbegins⟩ := List.mem_filter.1 he
  obtain ⟨v, hv, hpath⟩ := exists_variable_of_mem h hmem
  have hhead : e.1.head? = some k := of_decide_eq_true hbegins
  have hsingle : e.1 = [k] := by
    rw [List.head?_eq_some_iff] at hhead
    obtain ⟨path, hpath⟩ := hhead
    rw [hpath] at htail ⊢
    rw [List.tail_cons] at htail
    rw [htail]
  exact habsent v hv (hsingle ▸ hpath)

end Entries

end Settings

end CardCatalog
