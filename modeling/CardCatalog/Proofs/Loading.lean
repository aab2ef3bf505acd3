import CardCatalog.Proofs.SettingGroups
import CardCatalog.Proofs.ValidForms

/-!
# Loading settings

Settings load if what is found for each group is read and passes the checks of the group.  A field
then has the value that counts for it, as the rule of the field takes it, or its default.  Two
environments that agree apart from one variable find the same for every group that does not read the
variable.

Results: what loading rests on (`ofVariables_eq_ok_iff`), where a field gets its value from
(`counted_of_found`), and that a variable which nothing reads does not matter (`ofVariables_congr`).
-/

namespace CardCatalog
namespace Settings

open Text (Wide)
open Validation (Checked Rule)

section Loading

variable {found : Environment} {s : Settings}

/-- Settings load from what is found for each group, if that passes its checks. -/
theorem ofVariables_eq_ok_iff :
    ofVariables found = .ok s ↔
      ∃ api? cut? database? pagination?,
        groupValue apiGroup found = .ok api? ∧
        groupValue databaseGroup found = .ok database? ∧
        groupValue paginationGroup found = .ok pagination? ∧
        cutLists apiGroup api? = .ok cut? ∧
        ∃ api database pagination,
          checkGroup apiGroup apiRule {} cut? = .valid api ∧
          checkGroup databaseGroup databaseRule {} database? = .valid database ∧
          checkGroup paginationGroup paginationRule {} pagination? = .valid pagination ∧
          assembled found api database pagination = s := by
  have hchecked (api? database? pagination? : Option Json) :
      assembled found <$> checkGroup apiGroup apiRule {} api?
          <*> checkGroup databaseGroup databaseRule {} database?
          <*> checkGroup paginationGroup paginationRule {} pagination? = .valid s ↔
        ∃ api database pagination,
          checkGroup apiGroup apiRule {} api? = .valid api ∧
          checkGroup databaseGroup databaseRule {} database? = .valid database ∧
          checkGroup paginationGroup paginationRule {} pagination? = .valid pagination ∧
          assembled found api database pagination = s := by
    simp only [Validation.ap_eq_valid_iff, Validation.map_eq_valid_iff]
    constructor
    · rintro ⟨_, p, ⟨_, d, ⟨a, ha, rfl⟩, hd, rfl⟩, hp, rfl⟩
      exact ⟨a, d, p, ha, hd, hp, rfl⟩
    · rintro ⟨a, d, p, ha, hd, hp, rfl⟩
      exact ⟨_, p, ⟨_, d, ⟨a, ha, rfl⟩, hd, rfl⟩, hp, rfl⟩
  unfold ofVariables
  simp only [bind_eq_ok_iff]
  constructor
  · rintro ⟨api?, hapi, database?, hdatabase, pagination?, hpagination, cut?, hcut, h⟩
    split at h
    · rename_i hvalid
      cases h
      exact ⟨api?, cut?, database?, pagination?, hapi, hdatabase, hpagination, hcut,
        (hchecked cut? database? pagination?).1 hvalid⟩
    · cases h
  · rintro ⟨api?, cut?, database?, pagination?, hapi, hdatabase, hpagination, hcut, h⟩
    refine ⟨api?, hapi, database?, hdatabase, pagination?, hpagination, cut?, hcut, ?_⟩
    rw [(hchecked cut? database? pagination?).2 h]

theorem ofEnvironment_eq
    {env : Environment}
    (h : variablesOf env = .ok found) :
    ofEnvironment env = ofVariables found := by
  rw [ofEnvironment, h, ok_bind_eq]

end Loading

section Agreement

variable {found found' : Environment} {name : Wide} {g : Group}

/-- Whether environments agree on all variables but that of a name. -/
def AgreeApartFrom (name : Wide) (found found' : Environment) : Prop :=
  (found.filter fun v => v.1 ≠ name) = found'.filter fun v => v.1 ≠ name

theorem AgreeApartFrom.get?_eq
    {k : Wide}
    (h : AgreeApartFrom name found found') (hk : k ≠ name) :
    Json.get? found k = Json.get? found' k := by
  have hfilter (env : Environment) :
      Json.get? (env.filter fun v => v.1 ≠ name) k = Json.get? env k := by
    unfold Json.get?
    rw [List.find?_filter]
    congr 2
    funext v
    by_cases hv : v.1 = k
    · simp [hv, hk]
    · simp [hv]
  rw [← hfilter found, h, hfilter found']

/-- The variables of a group are the same, apart from one at a path of which no other is. -/
theorem AgreeApartFrom.filter_entriesOf
    {p : List Wide → Bool}
    (h : AgreeApartFrom name found found')
    (hp : ∀ path, pathIn? g.name name = some path → p path = false) :
    (entriesOf g found).filter (fun e => p e.1) = (entriesOf g found').filter fun e => p e.1 := by
  have hfilter (env : Environment) :
      (entriesOf g (env.filter fun v => v.1 ≠ name)).filter (fun e => p e.1)
        = (entriesOf g env).filter fun e => p e.1 := by
    induction env with
    | nil => rfl
    | cons v env ih =>
        by_cases hv : v.1 = name
        · rw [List.filter_cons_of_neg (by simpa using hv), ih]
          unfold entriesOf
          rw [List.filterMap_cons]
          split
          · rfl
          · rename_i e he
            obtain ⟨path, hpath, rfl⟩ := Option.map_eq_some_iff.1 he
            rw [List.filter_cons_of_neg (by simpa using hp path (hv ▸ hpath))]
        · rw [List.filter_cons_of_pos (by simpa using hv)]
          unfold entriesOf at ih ⊢
          rw [List.filterMap_cons, List.filterMap_cons]
          split
          · exact ih
          · rw [List.filter_cons, List.filter_cons, ih]
  rw [← hfilter found, h, hfilter found']

theorem AgreeApartFrom.groupValue_eq
    (h : AgreeApartFrom name found found')
    (hwhole : (g.name : Wide) ≠ name) (hpath : pathIn? g.name name = none) :
    groupValue g found = groupValue g found' := by
  have hentries : entriesOf g found = entriesOf g found' := by
    have hall := h.filter_entriesOf (g := g) (p := fun _ => true) fun path hsome => by
      rw [hpath] at hsome
      cases hsome
    simpa using hall
  have hsingle : singleFields g found = singleFields g found' := by
    rw [singleFields_eq, singleFields_eq, hentries]
  unfold groupValue
  rw [h.get?_eq hwhole, hsingle]

/-- The names of the variables that are settings of their own. -/
def singleNames : List String :=
  ["app_name", "app_env", "log_level", "tz", "alembic_script_location",
   "alembic_version_table_schema", "use_testcontainers", "test_db_image", "test_database_url"]

theorem AgreeApartFrom.assembled_eq
    (h : AgreeApartFrom name found found')
    (hname : ∀ n ∈ singleNames, Wide.ofText n ≠ name) :
    assembled found = assembled found' := by
  have hsame (n : String) (hn : n ∈ singleNames) :
      Json.get? found (Wide.ofText n) = Json.get? found' (Wide.ofText n) := h.get?_eq (hname n hn)
  simp only [singleNames, List.forall_mem_cons] at hsame
  obtain ⟨h1, h2, h3, h4, h5, h6, h7, h8, h9, -⟩ := hsame
  funext api database pagination
  unfold assembled
  dsimp only
  rw [h1, h2, h3, h4, h5, h6, h7, h8, h9]

/-- Whether no setting is read from the variable of a name. -/
def IsUnread (name : Wide) : Prop :=
  (∀ g ∈ [apiGroup, databaseGroup, paginationGroup],
      (g.name : Wide) ≠ name ∧ pathIn? g.name name = none) ∧
    ∀ n ∈ singleNames, Wide.ofText n ≠ name

instance : DecidablePred IsUnread := fun _ => inferInstanceAs (Decidable (_ ∧ _))

/-- A variable that nothing reads may have any text, and may be missing. -/
theorem ofVariables_congr
    (h : AgreeApartFrom name found found')
    (unread : IsUnread name) :
    ofVariables found = ofVariables found' := by
  have hgroup (g : Group) (hg : g ∈ [apiGroup, databaseGroup, paginationGroup]) :
      groupValue g found = groupValue g found' :=
    h.groupValue_eq (unread.1 g hg).1 (unread.1 g hg).2
  unfold ofVariables
  rw [hgroup apiGroup (by simp), hgroup databaseGroup (by simp), hgroup paginationGroup (by simp),
    h.assembled_eq unread.2]

end Agreement

section Counting

variable {α : Type} {g : Group} {found : Environment} {field : String} {place : List Validation.Step}
  {rule : Rule α} {default a : α} {found? : Option Json}

/-- A value that counts, as a rule takes it; without one, the default. -/
def counted (place : List Validation.Step) (rule : Rule α) (default : α) : Option Json → Checked α
  | some j => rule place j
  | none => .valid default

theorem withDefault_eq_counted
    (f : Rule.Fields) (field : String) (default : α) (rule : Rule α) :
    f.withDefault field default rule
      = counted (f.place ++ [.field field]) rule default (Json.get? f.entries (.ofText field)) := by
  unfold Rule.Fields.withDefault counted
  cases Json.get? f.entries (.ofText field) <;> rfl

/-- What passes the checks of a group is nothing, for the default, or an object. -/
theorem checkGroup_object_eq_valid_iff
    {kind : Validation.IssueKind} {check : Rule.Fields → Checked α} :
    checkGroup g (Rule.object kind check) default found? = .valid a ↔
      (found? = none ∧ default = a) ∨
        ∃ fields, found? = some (.object fields) ∧ check ⟨fields, [.field g.name]⟩ = .valid a := by
  constructor
  · intro h
    cases found? with
    | none => exact .inl ⟨rfl, Checked.valid.inj h⟩
    | some j =>
        cases j with
        | object fields => exact .inr ⟨fields, rfl, h⟩
        | _ => cases h
  · rintro (⟨rfl, rfl⟩ | ⟨fields, rfl, h⟩)
    · rfl
    · exact h

/-- Whether a rule takes no object. -/
def RefusesObjects (rule : Rule α) : Prop :=
  ∀ place fields a, rule place (.object fields) ≠ .valid a

theorem refusesObjects_wideText : RefusesObjects Rule.wideText := nofun

theorem refusesObjects_integer : RefusesObjects Rule.integer := nofun

theorem RefusesObjects.optional
    (h : RefusesObjects rule) :
    RefusesObjects rule.optional := by
  intro place fields a? ha
  obtain ⟨a, ha, _⟩ := Validation.map_eq_valid_iff.1 ha
  exact h place fields a ha

theorem refusesObjects_atLeast (least : Int) : RefusesObjects (Rule.atLeast least) := nofun

/-- A field of a group has the value that counts for it. -/
theorem counted_of_found
    (named : g.IsNamed) (hfield : field ∈ g.fields) (lowered : IsLowered found)
    (plain : g.lists = []) (refuses : RefusesObjects rule)
    (hfound : groupValue g found = .ok found?)
    (h : counted place rule default (fieldOf? found? field) = .valid a) :
    counted place rule default (given? g found field) = .valid a := by
  have htext : ∀ t, Json.get? found (variableName g field) = some t →
      variableValue g [(field : Wide).lower] t = .ok (.text t) := fun t _ => by
    rw [variableValue, plain]
    rfl
  rcases found_of_groupValue named hfield lowered htext hfound with hsame | ⟨inner, hinner⟩
  · rw [← hsame]
    exact h
  · rw [hinner] at h
    exact absurd h (refuses place inner a)

end Counting

end Settings
end CardCatalog
