import CardCatalog.Proofs.SettingPaths

/-!
# Groups of settings

A group of settings has one variable for all of its fields, and one for each.  What they give is
merged, and only then are the names taken for those of fields.  Which value counts for a field is
told here without the merging: the variable of the field goes over the name in lower case of the
object, or stands behind all names of it; and of the names that spell the field in any case, the
last one counts.

Results: what counts for a field is what the merged group has under its name, unless that is an
object, which no field takes (`found_of_groupValue`).
-/

namespace CardCatalog

open Text (Wide)

namespace Settings

section Naming

/-- The value of the last field that spells a name, in whatever case. -/
def spelled? {α : Type} (field : String) (fields : List (Wide × α)) : Option α :=
  ((fields.filter fun f => f.1.lower = (field : Wide).lower).getLast?).map (·.2)

/-- The variable of a field of a group, in lower case. -/
def variableName (g : Group) (field : String) : Wide :=
  Wide.ofText (g.name ++ "__") ++ (field : Wide).lower

/-- The names of the fields of a group in lower case. -/
def lowerFields (g : Group) : List Wide :=
  g.fields.map fun field : String => (field : Wide).lower

/-- Whether the fields of a group spell different names, each of ASCII letters in lower case and
not cut by underscores. -/
structure Group.IsNamed (g : Group) : Prop where
  distinct : (lowerFields g).Nodup
  ascii : ∀ name ∈ lowerFields g, ∀ c ∈ name.codes, c.IsAscii
  path : ∀ name ∈ lowerFields g,
    pathIn? g.name (Wide.ofText (g.name ++ "__") ++ name) = some [name]

theorem lowerFields_apiGroup :
    lowerFields apiGroup
      = ["host", "port", "prefix", "cors_allow_origins", "cors_allow_methods",
         "cors_allow_headers", "cors_allow_credentials"].map Wide.ofText := by
  decide +kernel

theorem lowerFields_databaseGroup :
    lowerFields databaseGroup
      = ["driver", "host", "port", "name", "user", "password", "db_schema", "echo", "pool_size",
         "max_overflow", "pool_pre_ping", "pool_recycle", "database_url"].map Wide.ofText := by
  decide +kernel

theorem lowerFields_paginationGroup :
    lowerFields paginationGroup = ["default_limit", "max_limit"].map Wide.ofText := by
  decide +kernel

theorem isNamed_apiGroup : apiGroup.IsNamed := by
  constructor <;> (rw [lowerFields_apiGroup]; decide +kernel)

theorem isNamed_databaseGroup : databaseGroup.IsNamed := by
  constructor <;> (rw [lowerFields_databaseGroup]; decide +kernel)

theorem isNamed_paginationGroup : paginationGroup.IsNamed := by
  constructor <;> (rw [lowerFields_paginationGroup]; decide +kernel)

variable {g : Group} {field : String}

/-- A name is taken for that of a field exactly if it spells it. -/
theorem fieldName_eq_iff
    (named : g.IsNamed) (hfield : field ∈ g.fields) (name : Wide) :
    fieldName g name = (field : Wide) ↔ name.lower = (field : Wide).lower := by
  unfold fieldName
  dsimp only
  cases hfind : g.fields.find? fun f : String => decide ((Wide.ofText f).lower = name.lower) with
  | none =>
      have hnone := List.find?_eq_none.1 hfind field hfield
      rw [decide_eq_true_eq] at hnone
      show name = (field : Wide) ↔ _
      constructor
      · rintro rfl
        rfl
      · exact fun h => absurd h.symm hnone
  | some f =>
      have hlower : (f : Wide).lower = name.lower := by simpa using List.find?_some hfind
      show Wide.ofText f = Wide.ofText field ↔ _
      rw [Wide.ofText_inj, ← hlower]
      constructor
      · rintro rfl
        rfl
      · exact fun h => List.inj_on_of_nodup_map named.distinct
          (List.mem_of_find?_eq_some hfind) hfield h

/-- Under the name of a field stands what last spells it. -/
theorem get?_nameFields
    (named : g.IsNamed) (hfield : field ∈ g.fields) (fields : List (Wide × Json)) :
    Json.get? (nameFields g fields) (field : Wide) = spelled? field fields := by
  unfold nameFields spelled?
  rw [Json.get?_foldl_put (fun f : Wide × Json => fieldName g f.1) (fun f => f.2)]
  have hfilter : (fun f : Wide × Json => decide (fieldName g f.1 = (field : Wide)))
      = fun f => decide (f.1.lower = (field : Wide).lower) := by
    funext f
    exact decide_eq_decide.2 (fieldName_eq_iff named hfield f.1)
  rw [hfilter]
  exact Option.or_none

/-- What is put under a name counts for a field whatever it is, or another name that spells the
field stands behind. -/
theorem spelled?_put
    (fields : List (Wide × Json)) (name : Wide) :
    (∀ j, spelled? field (Json.put fields name j) = some j) ∨
      ∀ j, spelled? field (Json.put fields name j) = spelled? field fields := by
  unfold spelled?
  simp only [Json.filter_put fun k : Wide => decide (k.lower = (field : Wide).lower)]
  split
  · rcases Json.getLast?_put (fields.filter fun f => decide (f.1.lower = (field : Wide).lower))
      name with h | h
    · exact .inl fun j => by rw [h]; rfl
    · exact .inr fun j => by rw [h]
  · exact .inr fun _ => rfl

/-- Fields are laid over others without regard to those of other names. -/
theorem filter_overlayFields_of_none
    {p : Wide → Bool} {fields upper : List (Wide × Json)}
    (h : ∀ f ∈ upper, p f.1 = false) :
    (overlayFields fields upper).filter (fun f => p f.1) = fields.filter fun f => p f.1 := by
  induction upper generalizing fields with
  | nil => rw [overlayFields]
  | cons f upper ih =>
      obtain ⟨hf, hupper⟩ := List.forall_mem_cons.1 h
      rw [overlayFields, ih hupper, Json.filter_put, if_neg (by rw [hf]; exact Bool.false_ne_true)]

/-- What is laid over the value that stands under a name. -/
def overlaid (fields : List (Wide × Json)) (name : Wide) (upper : Json) : Json :=
  match Json.get? fields name with
  | some under => overlay under upper
  | none => upper

theorem overlaid_text
    (fields : List (Wide × Json)) (name t : Wide) :
    overlaid fields name (.text t) = .text t := by
  unfold overlaid
  split
  · rw [overlay]
    exact nofun
  · rfl

/-- Fields that are laid over anything make an object. -/
theorem overlaid_object
    (fields : List (Wide × Json)) (name : Wide) (inner : List (Wide × Json)) :
    ∃ merged, overlaid fields name (.object inner) = .object merged := by
  unfold overlaid
  split
  · rename_i under _
    cases under with
    | object fields => exact ⟨overlayFields fields inner, by rw [overlay]⟩
    | _ => exact ⟨inner, by rw [overlay]; exact nofun⟩
  · exact ⟨inner, rfl⟩

/-- Of distinct names that are laid over others, the only one that is chosen is put among
them. -/
theorem filter_overlayFields
    {p : Wide → Bool} {upper : List (Wide × Json)} {name : Wide}
    (fields : List (Wide × Json)) (distinct : (upper.map (·.1)).Nodup)
    (chosen : p name = true) (only : ∀ f ∈ upper, p f.1 = true → f.1 = name) :
    (overlayFields fields upper).filter (fun f => p f.1)
      = match Json.get? upper name with
        | some j => (Json.put fields name (overlaid fields name j)).filter fun f => p f.1
        | none => fields.filter fun f => p f.1 := by
  induction upper generalizing fields with
  | nil => rw [overlayFields]; rfl
  | cons f upper ih =>
      obtain ⟨k, j⟩ := f
      rw [List.map_cons, List.nodup_cons] at distinct
      obtain ⟨hk, honly⟩ := List.forall_mem_cons.1 only
      rw [overlayFields]
      by_cases hkname : k = name
      · have hrest : ∀ f ∈ upper, p f.1 = false := fun f hf => by
          cases hp : p f.1 with
          | false => rfl
          | true =>
              have hsame : f.1 = k := (honly f hf hp).trans hkname.symm
              exact absurd (List.mem_map.2 ⟨f, hf, hsame⟩) distinct.1
        rw [filter_overlayFields_of_none hrest]
        simp only [Json.get?, List.find?_cons, hkname, decide_true, Option.map_some]
        rfl
      · have hp : p k = false := by
          cases hp : p k with
          | false => rfl
          | true => exact absurd (hk hp) hkname
        have hget : Json.get? ((k, j) :: upper) name = Json.get? upper name := by
          simp [Json.get?, hkname]
        rw [ih _ distinct.2 honly, hget]
        cases Json.get? upper name with
        | none => simp only [Json.filter_put p, hp, Bool.false_eq_true, if_false]
        | some u =>
            simp only [Json.filter_put p, chosen, hp, if_true, Bool.false_eq_true, if_false,
              overlaid, Json.get?_put, if_neg (Ne.symm hkname)]

end Naming

section Found

variable {g : Group} {env : Environment} {field : String} {upper : List (Wide × Json)}

/-- The fields that the variable of a whole group gives; nothing, if it gives no object. -/
def wholeFields? (g : Group) (env : Environment) : Option (List (Wide × Json)) :=
  match Json.get? env (g.name : Wide) with
  | none => some []
  | some whole =>
    match Json.read whole deepestSetting with
    | .ok (.object fields) => some fields
    | _ => none

/-- What counts for a field: the variable of the field goes over the name in lower case of the
object of the whole group, and of the names that spell the field the last one counts. -/
def given? (g : Group) (env : Environment) (field : String) : Option Json :=
  (wholeFields? g env).bind fun fields =>
    spelled? field <|
      match Json.get? env (variableName g field) with
      | some t => Json.put fields (field : Wide).lower (.text t)
      | none => fields

/-- The value under a name of what is found for a group. -/
def fieldOf? (found? : Option Json) (field : String) : Option Json :=
  found?.bind fun j => j.field? field

theorem mem_lowerFields
    (hfield : field ∈ g.fields) :
    (field : Wide).lower ∈ lowerFields g :=
  List.mem_map.2 ⟨field, hfield, rfl⟩

/-- The variable of a field that is taken as a text stands under the name of the field. -/
theorem get?_upper_of_some
    {t : Wide}
    (named : g.IsNamed) (hfield : field ∈ g.fields) (lowered : IsLowered env)
    (ht : Json.get? env (variableName g field) = some t)
    (htext : variableValue g [(field : Wide).lower] t = .ok (.text t))
    (h : singleFields g env = .ok upper) :
    Json.get? upper (field : Wide).lower = some (.text t) := by
  have hpath := named.path _ (mem_lowerFields hfield)
  rw [singleFields_eq, map_eq_ok_iff] at h
  obtain ⟨entries, hentries, rfl⟩ := h
  obtain ⟨before, after, rfl, hbefore, hafter⟩ :=
    Json.exists_eq_append_of_get? lowered.distinct ht
  have hsplit : entriesOf g (before ++ (variableName g field, t) :: after)
      = entriesOf g before ++ ([(field : Wide).lower], t) :: entriesOf g after := by
    simp [entriesOf, variableName, hpath]
  rw [hsplit, mapM_append_eq_ok_iff] at hentries
  obtain ⟨first, rest, hfirst, hrest, rfl⟩ := hentries
  obtain ⟨e, last, he, hlast, rfl⟩ := mapM_eq_ok_cons_iff.1 hrest
  have hentry : e = ([(field : Wide).lower], .text t) := by
    rw [readEntry, htext] at he
    cases he
    rfl
  have hdeepFirst := deep_of_absent
    (fun v hv hvpath => hbefore v hv (eq_of_pathIn?_singleton hvpath)) hfirst
  have hdeepLast := deep_of_absent
    (fun v hv hvpath => hafter v hv (eq_of_pathIn?_singleton hvpath)) hlast
  rw [get?_putAll, List.filter_append, hentry,
    List.filter_cons_of_pos (by simp [BeginsWith]), List.foldl_append, List.foldl_cons]
  exact foldl_putUnder_text t hdeepLast

/-- Without a variable of its own, a field has at most an object. -/
theorem get?_upper_of_none
    (ht : Json.get? env (variableName g field) = none)
    (h : singleFields g env = .ok upper) :
    Json.get? upper (field : Wide).lower = none ∨
      ∃ inner, Json.get? upper (field : Wide).lower = some (.object inner) := by
  rw [singleFields_eq, map_eq_ok_iff] at h
  obtain ⟨entries, hentries, rfl⟩ := h
  have hdeep := deep_of_absent
    (fun v hv hpath => Json.get?_eq_none_iff.1 ht v hv (eq_of_pathIn?_singleton hpath)) hentries
  rw [get?_putAll]
  exact foldl_putUnder_none (.inl rfl) hdeep

/-- Of the names that the variables of fields put, a field is spelled by its own alone. -/
theorem eq_lower_of_mem_upper
    (named : g.IsNamed) (hfield : field ∈ g.fields) (lowered : IsLowered env)
    (h : singleFields g env = .ok upper)
    {f : Wide × Json} (hf : f ∈ upper) (hspells : f.1.lower = (field : Wide).lower) :
    f.1 = (field : Wide).lower := by
  rw [singleFields_eq, map_eq_ok_iff] at h
  obtain ⟨entries, hentries, rfl⟩ := h
  exact Text.eq_of_lower_eq (isLow_of_mem_putAll lowered hentries hf)
    (named.ascii _ (mem_lowerFields hfield)) hspells

theorem nodup_upper
    (h : singleFields g env = .ok upper) :
    (upper.map (·.1)).Nodup := by
  rw [singleFields_eq, map_eq_ok_iff] at h
  obtain ⟨entries, _, rfl⟩ := h
  exact nodup_putAll entries List.nodup_nil

/-- Distinct fields that are laid over nothing stay as they are. -/
theorem overlayFields_nil
    (distinct : (upper.map (·.1)).Nodup) :
    overlayFields [] upper = upper := by
  have hstep (fields : List (Wide × Json)) (hdistinct : ((fields ++ upper).map (·.1)).Nodup) :
      overlayFields fields upper = fields ++ upper := by
    induction upper generalizing fields with
    | nil => rw [overlayFields, List.append_nil]
    | cons f upper ih =>
        obtain ⟨k, j⟩ := f
        have hnew : Json.get? fields k = none := by
          rw [List.map_append, List.map_cons, List.nodup_append] at hdistinct
          exact Json.get?_eq_none_iff.2 fun f hf =>
            hdistinct.2.2 f.1 (List.mem_map_of_mem hf) k List.mem_cons_self
        rw [overlayFields, hnew, Json.put_of_get?_eq_none hnew,
          ih (List.nodup_cons.1 distinct).2 _ (by simpa using hdistinct), List.append_assoc,
          List.singleton_append]
  exact hstep [] distinct

/-- The variables of fields are laid over the object of the whole group. -/
theorem spelled?_overlayFields
    (named : g.IsNamed) (hfield : field ∈ g.fields) (lowered : IsLowered env)
    (h : singleFields g env = .ok upper)
    (fields : List (Wide × Json)) :
    spelled? field (overlayFields fields upper)
      = match Json.get? upper (field : Wide).lower with
        | some j =>
          spelled? field (Json.put fields (field : Wide).lower
            (overlaid fields (field : Wide).lower j))
        | none => spelled? field fields := by
  have hself := Text.lower_lower_of_ascii (named.ascii _ (mem_lowerFields hfield))
  have hfilter := filter_overlayFields (p := fun k => decide (k.lower = (field : Wide).lower))
    fields (nodup_upper h) (decide_eq_true hself)
    fun f hf hp => eq_lower_of_mem_upper named hfield lowered h hf (of_decide_eq_true hp)
  unfold spelled?
  rw [hfilter]
  cases Json.get? upper (field : Wide).lower <;> rfl

/-- What is found for a group, once the variables of its fields are laid over its object. -/
def merged? (g : Group) (env : Environment) (fields upper : List (Wide × Json)) : Option Json :=
  if (Json.get? env (g.name : Wide)).isNone && upper.isEmpty then none
  else some (.object (nameFields g (overlayFields fields upper)))

theorem groupValue_of_fields
    {fields : List (Wide × Json)}
    (hwhole : wholeFields? g env = some fields) :
    groupValue g env = (singleFields g env).map (merged? g env fields) := by
  unfold wholeFields? at hwhole
  unfold groupValue
  cases hget : Json.get? env (g.name : Wide) with
  | none =>
      rw [hget] at hwhole
      cases hwhole
      cases hsingle : singleFields g env with
      | error e => rfl
      | ok upper =>
          show Except.ok _ = Except.ok (merged? g env [] upper)
          rw [merged?, hget, overlayFields_nil (nodup_upper hsingle)]
          rfl
  | some whole =>
      rw [hget] at hwhole
      dsimp only at hwhole ⊢
      split at hwhole
      · rename_i fields' hread
        cases hwhole
        rw [hread]
        cases singleFields g env with
        | error e => rfl
        | ok upper =>
            show Except.ok _ = Except.ok (merged? g env fields upper)
            rw [merged?, hget]
            rfl
      · cases hwhole

/-- Whether the variable of a whole group is null. -/
def IsNulled (g : Group) (env : Environment) : Prop :=
  ∃ whole, Json.get? env (g.name : Wide) = some whole ∧
    Json.read whole deepestSetting = .ok .null

theorem IsNulled.groupValue_eq
    (h : IsNulled g env) :
    groupValue g env = .ok none := by
  obtain ⟨whole, hget, hread⟩ := h
  unfold groupValue
  rw [hget]
  dsimp only
  rw [hread]

/-- Without an object, nothing is found for a group, or no object. -/
theorem found_of_wholeFields?_eq_none
    {found? : Option Json}
    (hwhole : wholeFields? g env = none) (h : groupValue g env = .ok found?) :
    IsNulled g env ∨ ∃ j, found? = some j ∧ ∀ fields, j ≠ .object fields := by
  unfold wholeFields? at hwhole
  unfold groupValue at h
  cases hget : Json.get? env (g.name : Wide) with
  | none =>
      rw [hget] at hwhole
      cases hwhole
  | some whole =>
      rw [hget] at hwhole h
      dsimp only at hwhole h
      cases hread : Json.read whole deepestSetting with
      | error e =>
          rw [hread] at h
          cases h
      | ok j =>
          rw [hread] at hwhole h
          cases j with
          | null => exact .inl ⟨whole, hget, hread⟩
          | object fields => cases hwhole
          | _ =>
              cases h
              exact .inr ⟨_, rfl, nofun⟩

theorem fieldOf?_merged?
    {fields : List (Wide × Json)}
    (named : g.IsNamed) (hfield : field ∈ g.fields)
    (hwhole : wholeFields? g env = some fields) :
    fieldOf? (merged? g env fields upper) field = spelled? field (overlayFields fields upper) := by
  unfold merged?
  split
  · rename_i hnothing
    obtain ⟨hnone, hempty⟩ := Bool.and_eq_true_iff.1 hnothing
    rw [wholeFields?, Option.isNone_iff_eq_none.1 hnone] at hwhole
    cases hwhole
    rw [List.isEmpty_iff.1 hempty, overlayFields]
    rfl
  · exact get?_nameFields named hfield _

/-- Unless it is an object, what is found for a field of a group is what counts for it. -/
theorem found_of_groupValue
    {found? : Option Json}
    (named : g.IsNamed) (hfield : field ∈ g.fields) (lowered : IsLowered env)
    (htext : ∀ t, Json.get? env (variableName g field) = some t →
      variableValue g [(field : Wide).lower] t = .ok (.text t))
    (h : groupValue g env = .ok found?) :
    fieldOf? found? field = given? g env field ∨
      ∃ inner, fieldOf? found? field = some (.object inner) := by
  cases hwhole : wholeFields? g env with
  | none =>
      rw [given?, hwhole]
      rcases found_of_wholeFields?_eq_none hwhole h with hnull | ⟨j, rfl, hother⟩
      · cases hnull.groupValue_eq.symm.trans h
        exact .inl rfl
      · cases j with
        | object fields => exact absurd rfl (hother fields)
        | _ => exact .inl rfl
  | some fields =>
      rw [groupValue_of_fields hwhole, map_eq_ok_iff] at h
      obtain ⟨upper, hupper, rfl⟩ := h
      rw [fieldOf?_merged? named hfield hwhole, given?, hwhole,
        spelled?_overlayFields named hfield lowered hupper]
      cases ht : Json.get? env (variableName g field) with
      | some t =>
          rw [get?_upper_of_some named hfield lowered ht (htext t ht) hupper]
          dsimp only
          rw [overlaid_text]
          exact .inl rfl
      | none =>
          rcases get?_upper_of_none ht hupper with hnone | ⟨inner, hinner⟩
          · rw [hnone]
            exact .inl rfl
          · rw [hinner]
            obtain ⟨merged, hmerged⟩ := overlaid_object fields (field : Wide).lower inner
            dsimp only
            rw [hmerged]
            rcases spelled?_put fields (field : Wide).lower with hput | hput
            · exact .inr ⟨merged, hput _⟩
            · exact .inl (hput _)

end Found

end Settings

end CardCatalog
