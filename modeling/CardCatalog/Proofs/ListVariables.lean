import CardCatalog.Proofs.Loading

/-!
# Variables of lists

The lists among the settings are cut out of comma-separated texts, but not out of those of their own
variables: such a text has to be JSON before it is cut.  Only the empty text goes to the cutting as
it is.

Results: what a variable of a list does to settings that load otherwise (`list_variable_read`), and a
comma-separated text that is refused (`comma_list_refused`).
-/

namespace CardCatalog

open Text (Wide)
open Validation (Checked Rule)

namespace Settings

section Cutting

variable {fields cut : List (Wide × Json)} {names : List String} {field : String}

/-- Cuts one list of an object into entries. -/
def cutField (fields : List (Wide × Json)) (name : String) :
    Except Failure (List (Wide × Json)) :=
  match Json.get? fields name with
  | none => .ok fields
  | some j =>
    match j.entries with
    | .ok entries => .ok (Json.put fields name (.ofTexts entries))
    | .error e => .error (.notText e)

theorem cutLists_object
    (g : Group) (fields : List (Wide × Json)) :
    cutLists g (some (.object fields))
      = (g.lists.foldlM cutField fields).map fun cut => some (.object cut) := rfl

/-- A value cut into entries, if it has any. -/
def cutValue (j : Json) : Json :=
  match j.entries with
  | .ok entries => .ofTexts entries
  | .error _ => j

/-- Cutting one list is possible if its value has entries, and changes nothing else. -/
theorem cutField_eq_ok_iff
    {name : String} :
    cutField fields name = .ok cut ↔
      (∀ j, Json.get? fields (name : Wide) = some j → ∃ entries, j.entries = .ok entries) ∧
        cut = match Json.get? fields (name : Wide) with
          | none => fields
          | some j => Json.put fields name (cutValue j) := by
  unfold cutField
  cases hget : Json.get? fields (name : Wide) with
  | none => simp [eq_comm]
  | some j =>
      cases hentries : j.entries with
      | ok entries => simp [cutValue, hentries, eq_comm]
      | error e => simp [hentries]

theorem get?_of_cutField
    {name : String}
    (h : cutField fields name = .ok cut) :
    Json.get? cut (field : Wide)
      = if field = name then (Json.get? fields (field : Wide)).map cutValue
        else Json.get? fields (field : Wide) := by
  obtain ⟨_, rfl⟩ := cutField_eq_ok_iff.1 h
  by_cases hname : field = name
  · rw [if_pos hname, hname]
    cases hget : Json.get? fields (name : Wide) with
    | none => exact hget
    | some j => exact (Json.get?_put fields name name _).trans (if_pos rfl)
  · rw [if_neg hname]
    cases hget : Json.get? fields (name : Wide) with
    | none => rfl
    | some j =>
        exact (Json.get?_put fields name field _).trans
          (if_neg fun h => hname (Wide.ofText_inj.1 h))

/-- Lists are cut if all of them have entries; what is no list stays as it is. -/
theorem exists_cutFields_iff
    (distinct : names.Nodup) :
    (∃ cut, names.foldlM cutField fields = .ok cut) ↔
      ∀ name ∈ names, ∀ j, Json.get? fields (name : Wide) = some j →
        ∃ entries, j.entries = .ok entries := by
  induction names generalizing fields with
  | nil => exact ⟨fun _ => nofun, fun _ => ⟨fields, rfl⟩⟩
  | cons name names ih =>
      obtain ⟨hname, hnames⟩ := List.nodup_cons.1 distinct
      simp only [List.foldlM_cons, bind_eq_ok_iff, List.forall_mem_cons]
      have hother {first : List (Wide × Json)} (hfirst : cutField fields name = .ok first)
          {n : String} (hn : n ∈ names) :
          Json.get? first (n : Wide) = Json.get? fields (n : Wide) := by
        rw [get?_of_cutField hfirst, if_neg (ne_of_mem_of_not_mem hn hname)]
      constructor
      · rintro ⟨cut, first, hfirst, hcut⟩
        refine ⟨(cutField_eq_ok_iff.1 hfirst).1, fun n hn j hj => ?_⟩
        exact (ih hnames).1 ⟨cut, hcut⟩ n hn j ((hother hfirst hn).trans hj)
      · rintro ⟨hentries, hrest⟩
        have hfirst := cutField_eq_ok_iff.2 ⟨hentries, rfl⟩
        obtain ⟨cut, hcut⟩ := (ih hnames).2 fun n hn j hj =>
          hrest n hn j ((hother hfirst hn).symm.trans hj)
        exact ⟨cut, _, hfirst, hcut⟩

theorem get?_of_cutFields
    (distinct : names.Nodup)
    (h : names.foldlM cutField fields = .ok cut) :
    Json.get? cut (field : Wide)
      = if field ∈ names then (Json.get? fields (field : Wide)).map cutValue
        else Json.get? fields (field : Wide) := by
  induction names generalizing fields with
  | nil =>
      cases h
      rfl
  | cons name names ih =>
      obtain ⟨hname, hnames⟩ := List.nodup_cons.1 distinct
      rw [List.foldlM_cons, bind_eq_ok_iff] at h
      obtain ⟨first, hfirst, hcut⟩ := h
      rw [ih hnames hcut, get?_of_cutField hfirst]
      by_cases hfield : field = name
      · rw [hfield, if_neg hname, if_pos rfl, if_pos List.mem_cons_self]
      · simp only [List.mem_cons, hfield, false_or, if_false]

variable {g : Group} {found? cut? : Option Json}

/-- Whether nothing is found, or an object. -/
def IsMerged (found? : Option Json) : Prop :=
  found? = none ∨ ∃ fields, found? = some (.object fields)

theorem exists_cutLists_iff
    (merged : IsMerged found?) (distinct : g.lists.Nodup) :
    (∃ cut?, cutLists g found? = .ok cut?) ↔
      ∀ name ∈ g.lists, ∀ j, fieldOf? found? name = some j →
        ∃ entries, j.entries = .ok entries := by
  rcases merged with rfl | ⟨fields, rfl⟩
  · exact ⟨fun _ _ _ => nofun, fun _ => ⟨none, rfl⟩⟩
  · rw [cutLists_object]
    simp only [map_eq_ok_iff]
    refine Iff.trans ?_ (exists_cutFields_iff distinct)
    constructor
    · rintro ⟨_, cut, hcut, _⟩
      exact ⟨cut, hcut⟩
    · rintro ⟨cut, hcut⟩
      exact ⟨_, cut, hcut, rfl⟩

/-- Once lists are cut, they are lists of their entries, and all else is as it was found. -/
theorem fieldOf?_of_cutLists
    (merged : IsMerged found?) (distinct : g.lists.Nodup)
    (h : cutLists g found? = .ok cut?) :
    IsMerged cut? ∧ ∀ field, fieldOf? cut? field
      = if field ∈ g.lists then (fieldOf? found? field).map cutValue
        else fieldOf? found? field := by
  rcases merged with rfl | ⟨fields, rfl⟩
  · cases h
    exact ⟨.inl rfl, fun field => (ite_self _).symm⟩
  · rw [cutLists_object, map_eq_ok_iff] at h
    obtain ⟨cut, hcut, rfl⟩ := h
    exact ⟨.inr ⟨cut, rfl⟩, fun field => get?_of_cutFields distinct hcut⟩

end Cutting

section Answering

variable {found? : Option Json} {a : ApiSettings}

/-- Whether the settings of answering have the values of their fields. -/
structure HasFields (value? : String → Option Json) (a : ApiSettings) : Prop where
  host : counted [.field "api", .field "host"] Rule.wideText "0.0.0.0" (value? "host")
    = .valid a.host
  port : counted [.field "api", .field "port"] Rule.integer 8000 (value? "port") = .valid a.port
  basePath : counted [.field "api", .field "prefix"] Rule.wideText "/api" (value? "prefix")
    = .valid a.basePath
  origins : counted [.field "api", .field "cors_allow_origins"] (Rule.list Rule.wideText)
    ["http://localhost:5173"] (value? "cors_allow_origins") = .valid a.allowedOrigins
  methods : counted [.field "api", .field "cors_allow_methods"] (Rule.list Rule.wideText)
    ["GET", "POST", "PUT", "PATCH", "DELETE", "OPTIONS"] (value? "cors_allow_methods")
    = .valid a.allowedMethods
  headers : counted [.field "api", .field "cors_allow_headers"] (Rule.list Rule.wideText) ["*"]
    (value? "cors_allow_headers") = .valid a.allowedHeaders
  credentials : counted [.field "api", .field "cors_allow_credentials"] Rule.truth false
    (value? "cors_allow_credentials") = .valid a.allowsCredentials

theorem checkGroup_api_iff
    (merged : IsMerged found?) :
    checkGroup apiGroup apiRule {} found? = .valid a ↔ HasFields (fieldOf? found?) a := by
  rcases merged with rfl | ⟨fields, rfl⟩
  · constructor
    · intro h
      cases h
      exact ⟨rfl, rfl, rfl, rfl, rfl, rfl, rfl⟩
    · rintro ⟨h1, h2, h3, h4, h5, h6, h7⟩
      cases a
      cases h1; cases h2; cases h3; cases h4; cases h5; cases h6; cases h7
      rfl
  · simp only [checkGroup, apiRule, Rule.object, withDefault_eq_counted, Validation.ap_eq_valid_iff,
      Validation.map_eq_valid_iff]
    constructor
    · rintro ⟨_, _, ⟨_, _, ⟨_, _, ⟨_, _, ⟨_, _, ⟨_, _, ⟨_, h1, rfl⟩, h2, rfl⟩, h3, rfl⟩, h4, rfl⟩,
        h5, rfl⟩, h6, rfl⟩, h7, rfl⟩
      exact ⟨h1, h2, h3, h4, h5, h6, h7⟩
    · rintro ⟨h1, h2, h3, h4, h5, h6, h7⟩
      exact ⟨_, _, ⟨_, _, ⟨_, _, ⟨_, _, ⟨_, _, ⟨_, _, ⟨_, h1, rfl⟩, h2, rfl⟩, h3, rfl⟩, h4, rfl⟩,
        h5, rfl⟩, h6, rfl⟩, h7, rfl⟩

/-- What is found for settings that load is an object, or nothing. -/
theorem isMerged_of_checkGroup
    {cut? : Option Json}
    (hcut : cutLists apiGroup found? = .ok cut?)
    (h : checkGroup apiGroup apiRule {} cut? = .valid a) :
    IsMerged found? := by
  cases found? with
  | none => exact .inl rfl
  | some j =>
      cases j with
      | object fields => exact .inr ⟨fields, rfl⟩
      | _ =>
          cases hcut
          cases h

end Answering

section Variables

variable {g : Group} {found found' : Environment} {field : String} {t : Wide}
  {upper upper' : List (Wide × Json)}

/-- The variable of a field is the only one at its path. -/
theorem eq_of_mem_entriesOf
    {x : List Wide × Wide}
    (lowered : IsLowered found)
    (ht : Json.get? found (variableName g field) = some t)
    (hx : x ∈ entriesOf g found) (hpath : x.1 = [(field : Wide).lower]) :
    x = ([(field : Wide).lower], t) := by
  obtain ⟨v, hv, hv1, hv2⟩ := mem_entriesOf_iff.1 hx
  have hname : v.1 = variableName g field := eq_of_pathIn?_singleton (hpath ▸ hv1)
  obtain ⟨before, after, rfl, hbefore, hafter⟩ :=
    Json.exists_eq_append_of_get? lowered.distinct ht
  rcases List.mem_append.1 hv with hv | hv
  · exact absurd hname (hbefore v hv)
  rcases List.mem_cons.1 hv with rfl | hv
  · exact Prod.ext hpath hv2.symm
  · exact absurd hname (hafter v hv)

theorem mem_entriesOf_of_get?
    (named : g.IsNamed) (hfield : field ∈ g.fields)
    (ht : Json.get? found (variableName g field) = some t) :
    ([(field : Wide).lower], t) ∈ entriesOf g found :=
  mem_entriesOf_iff.2
    ⟨_, Json.mem_of_get?_eq_some ht, named.path _ (mem_lowerFields hfield), rfl⟩

/-- The other variables of a group are the same. -/
theorem AgreeApartFrom.mem_entriesOf
    {x : List Wide × Wide}
    (agree : AgreeApartFrom (variableName g field) found found')
    (named : g.IsNamed) (hfield : field ∈ g.fields)
    (hx : x ∈ entriesOf g found) (hpath : x.1 ≠ [(field : Wide).lower]) :
    x ∈ entriesOf g found' := by
  have hfilter := agree.filter_entriesOf (g := g)
    (p := fun path => decide (path ≠ [(field : Wide).lower])) fun path hsome => by
      cases (named.path _ (mem_lowerFields hfield)).symm.trans hsome
      simp
  have hmem : x ∈ (entriesOf g found).filter fun e => decide (e.1 ≠ [(field : Wide).lower]) :=
    List.mem_filter.2 ⟨hx, decide_eq_true hpath⟩
  rw [hfilter] at hmem
  exact (List.mem_filter.1 hmem).1

/-- Variables of fields that are read without one are read with it as it is read. -/
theorem singleFields_of_agree
    (agree : AgreeApartFrom (variableName g field) found found')
    (named : g.IsNamed) (hfield : field ∈ g.fields) (lowered : IsLowered found)
    (ht : Json.get? found (variableName g field) = some t)
    (hupper' : singleFields g found' = .ok upper') :
    (∀ e, variableValue g [(field : Wide).lower] t = .error e → singleFields g found = .error e) ∧
      ((∃ j, variableValue g [(field : Wide).lower] t = .ok j) →
        ∃ upper, singleFields g found = .ok upper) := by
  rw [singleFields_eq, map_eq_ok_iff] at hupper'
  obtain ⟨entries', hentries', rfl⟩ := hupper'
  have hcases (x : List Wide × Wide) (hx : x ∈ entriesOf g found) :
      x = ([(field : Wide).lower], t) ∨ ∃ e, readEntry g x = .ok e := by
    by_cases hpath : x.1 = [(field : Wide).lower]
    · exact .inl (eq_of_mem_entriesOf lowered ht hx hpath)
    · exact .inr (exists_answer_of_mem hentries' (agree.mem_entriesOf named hfield hx hpath))
  rw [singleFields_eq]
  constructor
  · intro e he
    have hstop : readEntry g ([(field : Wide).lower], t) = .error e := map_eq_error_iff.2 he
    rw [mapM_eq_error_of_mem (mem_entriesOf_of_get? named hfield ht) hstop ?_]
    · rfl
    · intro y hy e' he'
      rcases hcases y hy with rfl | ⟨_, hread⟩
      · rw [hstop] at he'
        exact (Except.error.inj he').symm
      · rw [hread] at he'
        cases he'
  · rintro ⟨j, hj⟩
    obtain ⟨entries, hentries⟩ : ∃ entries, (entriesOf g found).mapM (readEntry g) = .ok entries :=
      exists_mapM_eq_ok fun x hx => by
        rcases hcases x hx with rfl | hread
        · exact ⟨_, map_eq_ok_iff.2 ⟨j, hj, rfl⟩⟩
        · exact hread
    exact ⟨_, by rw [hentries]; rfl⟩

/-- Under other names, the variables of fields put the same. -/
theorem get?_upper_of_agree
    {k : Wide}
    (agree : AgreeApartFrom (variableName g field) found found')
    (named : g.IsNamed) (hfield : field ∈ g.fields) (hk : k ≠ (field : Wide).lower)
    (hupper : singleFields g found = .ok upper)
    (hupper' : singleFields g found' = .ok upper') :
    Json.get? upper k = Json.get? upper' k := by
  rw [singleFields_eq, map_eq_ok_iff] at hupper hupper'
  obtain ⟨entries, hentries, rfl⟩ := hupper
  obtain ⟨entries', hentries', rfl⟩ := hupper'
  have hkeeps (x : List Wide × Wide) (b : List Wide × Json) (h : readEntry g x = .ok b) :
      b.1 = x.1 := by
    obtain ⟨_, _, rfl⟩ := map_eq_ok_iff.1 h
    rfl
  have hfilter := agree.filter_entriesOf (g := g) (p := fun path => decide (BeginsWith k path))
    fun path hsome => by
      cases (named.path _ (mem_lowerFields hfield)).symm.trans hsome
      exact decide_eq_false fun h => hk (Option.some.inj h).symm
  have hsame := mapM_filter_of_key (fun path => decide (BeginsWith k path)) hkeeps hentries
  rw [hfilter, mapM_filter_of_key (fun path => decide (BeginsWith k path)) hkeeps hentries']
    at hsame
  rw [get?_putAll, get?_putAll, Except.ok.inj hsame]

/-- Of the fields of a group, all others are found as without the variable. -/
theorem spelled?_of_agree
    {fields : List (Wide × Json)} {other : String}
    (agree : AgreeApartFrom (variableName g field) found found')
    (named : g.IsNamed) (hfield : field ∈ g.fields) (hother : other ∈ g.fields)
    (hne : other ≠ field)
    (lowered : IsLowered found) (lowered' : IsLowered found')
    (hupper : singleFields g found = .ok upper)
    (hupper' : singleFields g found' = .ok upper') :
    spelled? other (overlayFields fields upper) = spelled? other (overlayFields fields upper') := by
  have hk : (other : Wide).lower ≠ (field : Wide).lower := fun h =>
    hne (List.inj_on_of_nodup_map named.distinct hother hfield h)
  rw [spelled?_overlayFields named hother lowered hupper,
    spelled?_overlayFields named hother lowered' hupper',
    get?_upper_of_agree agree named hfield hk hupper hupper']

end Variables

section Lists

variable {found found' : Environment} {list : String} {t : Wide} {s' : Settings}
  {fields upper upper' : List (Wide × Json)}

theorem lower_of_mem_originLists : ∀ list ∈ originLists, (list : Wide).lower = list := by
  decide +kernel

theorem mem_fields_of_mem_originLists
    (hlist : list ∈ originLists) :
    list ∈ apiGroup.fields :=
  List.mem_append_left _ (List.mem_append_right _ hlist)

theorem variableValue_of_list
    (hlist : list ∈ originLists) (hne : t ≠ "") :
    variableValue apiGroup [(list : Wide).lower] t
      = (Json.read t deepestSetting).mapError (.ofUnread "api") := by
  have hany : (apiGroup.lists.any fun name => decide ((list : Wide).lower = (name : Wide)))
      = true :=
    List.any_eq_true.2 ⟨list, hlist, decide_eq_true (lower_of_mem_originLists list hlist)⟩
  have hread : ((apiGroup.lists.any fun name => decide ((list : Wide).lower = (name : Wide)))
      && decide (t ≠ "")) = true := by
    rw [hany, Bool.true_and]
    exact decide_eq_true hne
  rw [variableValue, if_pos hread]
  rfl

theorem variableValue_empty
    (g : Group) (k : Wide) :
    variableValue g [k] "" = .ok (.text "") := by
  simp [variableValue]

/-- The list of a variable with the empty text is that text, or what it is without the variable. -/
theorem spelled?_of_empty
    (hlist : list ∈ originLists)
    (lowered : IsLowered found) (lowered' : IsLowered found')
    (ht : Json.get? found (variableName apiGroup list) = some "")
    (hupper : singleFields apiGroup found = .ok upper)
    (hupper' : singleFields apiGroup found' = .ok upper') :
    spelled? list (overlayFields fields upper)
        = spelled? list (Json.put fields (list : Wide).lower (.text "")) ∧
      (spelled? list (overlayFields fields upper) = some (.text "") ∨
        spelled? list (overlayFields fields upper)
          = spelled? list (overlayFields fields upper')) := by
  have hfield := mem_fields_of_mem_originLists hlist
  have hput : spelled? list (overlayFields fields upper)
      = spelled? list (Json.put fields (list : Wide).lower (.text "")) := by
    rw [spelled?_overlayFields isNamed_apiGroup hfield lowered hupper,
      get?_upper_of_some isNamed_apiGroup hfield lowered ht (variableValue_empty _ _) hupper]
    dsimp only
    rw [overlaid_text]
  refine ⟨hput, ?_⟩
  rw [hput, spelled?_overlayFields isNamed_apiGroup hfield lowered' hupper']
  rcases spelled?_put fields (list : Wide).lower with h | h
  · exact .inl (h _)
  · rw [h]
    cases Json.get? upper' (list : Wide).lower with
    | none => exact .inr rfl
    | some j => exact .inr (h _).symm

/-- A list of the settings of answering, by its name. -/
def listOf (a : ApiSettings) (list : String) : List Wide :=
  if list = "cors_allow_origins" then a.allowedOrigins
  else if list = "cors_allow_methods" then a.allowedMethods
  else a.allowedHeaders

/-- A list that passes its check still does if it becomes empty, and is empty then. -/
theorem exists_counted_list
    {place : List Validation.Step} {default ws' : List Wide} {j? j'? : Option Json}
    (h : counted place (Rule.list Rule.wideText) default j'? = .valid ws')
    (hself : j? = some (.ofTexts []) ∨ j? = j'?) :
    ∃ ws, counted place (Rule.list Rule.wideText) default j? = .valid ws ∧
      (j? = some (.ofTexts []) → ws = []) := by
  rcases hself with rfl | rfl
  · exact ⟨[], rfl, fun _ => rfl⟩
  · refine ⟨ws', h, ?_⟩
    rintro rfl
    exact (Checked.valid.inj h).symm

/-- With the fields of valid settings, apart from a list that is empty or the same, others are
valid. -/
theorem exists_hasFields
    {value? value'? : String → Option Json} {a' : ApiSettings}
    (h : HasFields value'? a')
    (hother : ∀ field ∈ apiGroup.fields, field ≠ list → value? field = value'? field)
    (hself : value? list = some (.ofTexts []) ∨ value? list = value'? list)
    (hlist : list ∈ originLists) :
    ∃ a, HasFields value? a ∧ (value? list = some (.ofTexts []) → listOf a list = []) := by
  have hscalar (field : String) (hfield : field ∈ apiGroup.fields) (hnot : field ∉ originLists) :
      value? field = value'? field :=
    hother field hfield fun heq => hnot (heq ▸ hlist)
  have hentry {name : String} (hname : name ∈ originLists) :
      value? name = some (.ofTexts []) ∨ value? name = value'? name := by
    by_cases heq : name = list
    · exact heq ▸ hself
    · exact .inr (hother name (mem_fields_of_mem_originLists hname) heq)
  obtain ⟨origins, horigins, hisOrigins⟩ := exists_counted_list h.origins (hentry (by decide))
  obtain ⟨methods, hmethods, hisMethods⟩ := exists_counted_list h.methods (hentry (by decide))
  obtain ⟨headers, hheaders, hisHeaders⟩ := exists_counted_list h.headers (hentry (by decide))
  refine
    ⟨{ a' with
        allowedOrigins := origins, allowedMethods := methods, allowedHeaders := headers },
      { host := ?_, port := ?_, basePath := ?_, origins := horigins, methods := hmethods,
        headers := hheaders, credentials := ?_ }, fun hempty => ?_⟩
  · rw [hscalar "host" (by decide) (by decide)]
    exact h.host
  · rw [hscalar "port" (by decide) (by decide)]
    exact h.port
  · rw [hscalar "prefix" (by decide) (by decide)]
    exact h.basePath
  · rw [hscalar "cors_allow_credentials" (by decide) (by decide)]
    exact h.credentials
  · unfold listOf
    split
    · rename_i hname
      exact hisOrigins (hname ▸ hempty)
    split
    · rename_i hname
      exact hisMethods (hname ▸ hempty)
    · rename_i hnotOrigins hnotMethods
      simp only [originLists, List.mem_cons, hnotOrigins, hnotMethods, false_or, List.not_mem_nil,
        or_false] at hlist
      exact hisHeaders (hlist ▸ hempty)

theorem cutValue_empty : cutValue (.text "") = .ofTexts [] := rfl

/-- What passes the checks still does if the text of a list becomes empty. -/
theorem exists_checked_of_empty
    {found? found'? cut'? : Option Json} {a' : ApiSettings}
    (merged : IsMerged found?) (merged' : IsMerged found'?)
    (hlist : list ∈ originLists)
    (hother : ∀ field ∈ apiGroup.fields, field ≠ list →
      fieldOf? found? field = fieldOf? found'? field)
    (hself : fieldOf? found? list = some (.text "") ∨ fieldOf? found? list = fieldOf? found'? list)
    (hcut' : cutLists apiGroup found'? = .ok cut'?)
    (ha' : checkGroup apiGroup apiRule {} cut'? = .valid a') :
    ∃ cut? a, cutLists apiGroup found? = .ok cut? ∧
      checkGroup apiGroup apiRule {} cut? = .valid a ∧
      (fieldOf? found? list = some (.text "") → listOf a list = []) := by
  have distinct : apiGroup.lists.Nodup := by decide
  have hentries' := (exists_cutLists_iff merged' distinct).1 ⟨cut'?, hcut'⟩
  obtain ⟨cut?, hcut⟩ := (exists_cutLists_iff merged distinct).2 fun name hname j hj => by
    by_cases heq : name = list
    · rw [heq] at hj hname
      rcases hself with hempty | hsame
      · cases hempty.symm.trans hj
        exact ⟨_, rfl⟩
      · exact hentries' list hname j (hsame.symm.trans hj)
    · rw [hother name (mem_fields_of_mem_originLists hname) heq] at hj
      exact hentries' name hname j hj
  obtain ⟨mergedCut, hvalue⟩ := fieldOf?_of_cutLists merged distinct hcut
  obtain ⟨mergedCut', hvalue'⟩ := fieldOf?_of_cutLists merged' distinct hcut'
  have hvalueList : fieldOf? cut? list = (fieldOf? found? list).map cutValue := by
    rw [hvalue, if_pos (show list ∈ apiGroup.lists from hlist)]
  have hcutEmpty (hempty : fieldOf? found? list = some (.text "")) :
      fieldOf? cut? list = some (.ofTexts []) := by
    rw [hvalueList, hempty, Option.map_some, cutValue_empty]
  have hcutSelf : fieldOf? cut? list = some (.ofTexts []) ∨
      fieldOf? cut? list = fieldOf? cut'? list := by
    rcases hself with hempty | hsame
    · exact .inl (hcutEmpty hempty)
    · rw [hvalueList, hvalue', if_pos (show list ∈ apiGroup.lists from hlist), hsame]
      exact .inr rfl
  obtain ⟨a, hfields, hempty⟩ := exists_hasFields ((checkGroup_api_iff mergedCut').1 ha')
    (fun field hfield hne => by rw [hvalue, hvalue', hother field hfield hne]) hcutSelf hlist
  exact ⟨cut?, a, hcut, (checkGroup_api_iff mergedCut).2 hfields, fun h => hempty (hcutEmpty h)⟩

theorem isMerged_merged?
    (g : Group) (found : Environment) (fields upper : List (Wide × Json)) :
    IsMerged (merged? g found fields upper) := by
  unfold merged?
  split
  · exact .inl rfl
  · exact .inr ⟨_, rfl⟩

/-- Nothing but its group reads the variable of a list. -/
theorem unread_of_mem_originLists :
    ∀ list ∈ originLists,
      Wide.ofText "api" ≠ Wide.ofText "api__" ++ Wide.ofText list ∧
      (∀ g ∈ [databaseGroup, paginationGroup],
        (g.name : Wide) ≠ Wide.ofText "api__" ++ Wide.ofText list ∧
          pathIn? g.name (Wide.ofText "api__" ++ Wide.ofText list) = none) ∧
      ∀ n ∈ singleNames, Wide.ofText n ≠ Wide.ofText "api__" ++ Wide.ofText list := by
  decide +kernel

theorem variableName_of_mem_originLists
    (hlist : list ∈ originLists) :
    variableName apiGroup list = Wide.ofText "api__" ++ Wide.ofText list := by
  rw [variableName, lower_of_mem_originLists list hlist]
  rfl

/-- Whether the variable of a list has a text, in variables that agree with others apart from it. -/
structure HoldsList (found found' : Environment) (list : String) (t : Wide) : Prop where
  agree : AgreeApartFrom (variableName apiGroup list) found found'
  known : list ∈ originLists
  holds : Json.get? found (variableName apiGroup list) = some t
  lowered : IsLowered found
  lowered' : IsLowered found'

theorem HoldsList.get?_whole
    (h : HoldsList found found' list t) :
    Json.get? found (apiGroup.name : Wide) = Json.get? found' (apiGroup.name : Wide) := by
  refine h.agree.get?_eq ?_
  rw [variableName_of_mem_originLists h.known]
  exact (unread_of_mem_originLists list h.known).1

theorem HoldsList.isNulled_iff
    (h : HoldsList found found' list t) :
    IsNulled apiGroup found ↔ IsNulled apiGroup found' := by
  unfold IsNulled
  rw [h.get?_whole]

theorem HoldsList.wholeFields?_eq
    (h : HoldsList found found' list t) :
    wholeFields? apiGroup found = wholeFields? apiGroup found' := by
  unfold wholeFields?
  rw [h.get?_whole]

/-- Settings load if the settings of answering do, and all else is as it is in the others. -/
theorem HoldsList.loads_of_checked
    {found? cut? : Option Json} {a : ApiSettings}
    (h : HoldsList found found' list t)
    (loads : ofVariables found' = .ok s')
    (hfound : groupValue apiGroup found = .ok found?)
    (hcut : cutLists apiGroup found? = .ok cut?)
    (hvalid : checkGroup apiGroup apiRule {} cut? = .valid a) :
    ofVariables found = .ok { s' with api := a } := by
  obtain ⟨_, hgroups, hsingles⟩ := unread_of_mem_originLists list h.known
  rw [← variableName_of_mem_originLists h.known] at hgroups hsingles
  have hgroup (g : Group) (hg : g ∈ [databaseGroup, paginationGroup]) :
      groupValue g found = groupValue g found' :=
    h.agree.groupValue_eq (hgroups g hg).1 (hgroups g hg).2
  obtain ⟨_, _, database?, pagination?, _, hdatabase, hpagination, _, _, d, p, _, hd, hp, rfl⟩ :=
    ofVariables_eq_ok_iff.1 loads
  rw [← hgroup _ (by simp)] at hdatabase hpagination
  refine ofVariables_eq_ok_iff.2 ⟨found?, cut?, database?, pagination?, hfound, hdatabase,
    hpagination, hcut, a, d, p, hvalid, hd, hp, ?_⟩
  rw [h.agree.assembled_eq hsingles]
  rfl

/-- Under a variable of the whole group that is null, the text does not matter. -/
theorem HoldsList.loads_of_isNulled
    (h : HoldsList found found' list t)
    (loads : ofVariables found' = .ok s')
    (nulled : IsNulled apiGroup found) :
    ofVariables found = .ok s' := by
  obtain ⟨found?, cut?, _, _, hfound, _, _, hcut, a, _, _, ha, _, _, hs⟩ :=
    ofVariables_eq_ok_iff.1 loads
  cases hfound.symm.trans (h.isNulled_iff.1 nulled).groupValue_eq
  have hsame : { s' with api := a } = s' := by
    rw [← hs]
    rfl
  exact hsame ▸ h.loads_of_checked loads nulled.groupValue_eq hcut ha

/-- If settings load, then the variable of the whole group is missing, null or an object. -/
theorem exists_wholeFields?
    (loads : ofVariables found = .ok s') (notNulled : ¬ IsNulled apiGroup found) :
    ∃ fields, wholeFields? apiGroup found = some fields := by
  obtain ⟨_, _, _, _, hfound, _, _, hcut, _, _, _, ha, _⟩ := ofVariables_eq_ok_iff.1 loads
  cases hwhole : wholeFields? apiGroup found with
  | some fields => exact ⟨fields, rfl⟩
  | none =>
      exfalso
      rcases found_of_wholeFields?_eq_none hwhole hfound with hnulled | ⟨j, rfl, hother⟩
      · exact notNulled hnulled
      · rcases isMerged_of_checkGroup hcut ha with hnone | ⟨fields, hobject⟩
        · cases hnone
        · exact hother fields (Option.some.inj hobject)

/-- Otherwise a text that is not JSON is refused, unless it is empty. -/
theorem HoldsList.refused
    {e : Json.Unread}
    (h : HoldsList found found' list t)
    (loads : ofVariables found' = .ok s')
    (notNulled : ¬ IsNulled apiGroup found)
    (hne : t ≠ "") (hread : Json.read t deepestSetting = .error e) :
    ofVariables found = .error (.ofUnread "api" e) := by
  have hfield := mem_fields_of_mem_originLists h.known
  obtain ⟨fields, hwhole'⟩ := exists_wholeFields? loads fun h' => notNulled (h.isNulled_iff.2 h')
  obtain ⟨_, _, _, _, hfound, _⟩ := ofVariables_eq_ok_iff.1 loads
  rw [groupValue_of_fields hwhole', map_eq_ok_iff] at hfound
  obtain ⟨upper', hupper', _⟩ := hfound
  have hstop : singleFields apiGroup found = .error (.ofUnread "api" e) := by
    refine (singleFields_of_agree h.agree isNamed_apiGroup hfield h.lowered h.holds hupper').1 _ ?_
    rw [variableValue_of_list h.known hne, hread]
    rfl
  rw [ofVariables, groupValue_of_fields (h.wholeFields?_eq.trans hwhole'), hstop]
  rfl

/-- And if it is empty, the list is empty, if it is this variable that counts for it. -/
theorem HoldsList.loads_of_empty
    (h : HoldsList found found' list "")
    (loads : ofVariables found' = .ok s')
    (notNulled : ¬ IsNulled apiGroup found) :
    ∃ a, ofVariables found = .ok { s' with api := a } ∧
      (given? apiGroup found list = some (.text "") → listOf a list = []) := by
  have hfield := mem_fields_of_mem_originLists h.known
  obtain ⟨fields, hwhole'⟩ := exists_wholeFields? loads fun h' => notNulled (h.isNulled_iff.2 h')
  have hwhole := h.wholeFields?_eq.trans hwhole'
  obtain ⟨_, _, _, _, hfound', _, _, hcut', _, _, _, ha', _⟩ := ofVariables_eq_ok_iff.1 loads
  rw [groupValue_of_fields hwhole', map_eq_ok_iff] at hfound'
  obtain ⟨upper', hupper', rfl⟩ := hfound'
  obtain ⟨upper, hupper⟩ :=
    (singleFields_of_agree h.agree isNamed_apiGroup hfield h.lowered h.holds hupper').2
      ⟨_, variableValue_empty _ _⟩
  have hvalue {field : String} (hfield : field ∈ apiGroup.fields) :
      fieldOf? (merged? apiGroup found fields upper) field
        = spelled? field (overlayFields fields upper) :=
    fieldOf?_merged? isNamed_apiGroup hfield hwhole
  have hvalue' {field : String} (hfield : field ∈ apiGroup.fields) :
      fieldOf? (merged? apiGroup found' fields upper') field
        = spelled? field (overlayFields fields upper') :=
    fieldOf?_merged? isNamed_apiGroup hfield hwhole'
  obtain ⟨hput, hself⟩ :=
    spelled?_of_empty h.known h.lowered h.lowered' h.holds hupper hupper'
  rw [← hvalue hfield, ← hvalue' hfield] at hself
  obtain ⟨cut?, a, hcut, hvalid, hempty⟩ := exists_checked_of_empty (isMerged_merged? _ _ _ _)
    (isMerged_merged? _ _ _ _) h.known (fun other hother hne => by
      rw [hvalue hother, hvalue' hother, spelled?_of_agree h.agree isNamed_apiGroup hfield hother
        hne h.lowered h.lowered' hupper hupper'])
    hself hcut' ha'
  have hfound : groupValue apiGroup found = .ok (merged? apiGroup found fields upper) := by
    rw [groupValue_of_fields hwhole, hupper]
    rfl
  refine ⟨a, h.loads_of_checked loads hfound hcut hvalid, fun hgiven => hempty ?_⟩
  rw [hvalue hfield, hput, ← hgiven, given?, hwhole, h.holds]
  rfl

/-- What the variable of a list does to settings that load otherwise.  If the variable of the whole
group is null, nothing.  Else a text that is not JSON is refused, unless it is empty; then the list
is empty, too, if it is this variable that counts for it. -/
theorem list_variable_read
    {env env' : Environment}
    (hfound : variablesOf env = .ok found)
    (hfound' : variablesOf env' = .ok found')
    (agree : AgreeApartFrom (variableName apiGroup list) found found')
    (loads : ofEnvironment env' = .ok s')
    (hlist : list ∈ originLists)
    (ht : Json.get? found (variableName apiGroup list) = some t) :
    (IsNulled apiGroup found → ofEnvironment env = .ok s') ∧
      (¬ IsNulled apiGroup found →
        (∀ e, t ≠ "" → Json.read t deepestSetting = .error e →
          ofEnvironment env = .error (.ofUnread "api" e)) ∧
        (t = "" → ∃ a, ofEnvironment env = .ok { s' with api := a } ∧
          (given? apiGroup found list = some (.text "") →
            listOf a list = Text.commaList t))) := by
  have h : HoldsList found found' list t :=
    ⟨agree, hlist, ht, isLowered_of_variablesOf hfound, isLowered_of_variablesOf hfound'⟩
  rw [ofEnvironment_eq hfound'] at loads
  rw [ofEnvironment_eq hfound]
  refine ⟨h.loads_of_isNulled loads, fun notNulled => ⟨fun e hne hread => ?_, ?_⟩⟩
  · exact h.refused loads notNulled hne hread
  · rintro rfl
    exact h.loads_of_empty loads notNulled

/-- The variable of the methods, with a comma-separated text and with none, beside one of the
headers. -/
theorem list_variable_read_of_methods :
    let env (t : Wide) : Environment :=
      [("API__CORS_ALLOW_METHODS", t), ("API__CORS_ALLOW_HEADERS", "[\"a\"]")]
    ofEnvironment (env "GET, PUT") = .error (.unparsable "api") ∧
      ∃ a, ofEnvironment (env "") = .ok { api := a } ∧ a.allowedMethods = [] := by
  intro env
  let found (t : Wide) : Environment :=
    [("api__cors_allow_methods", t), ("api__cors_allow_headers", "[\"a\"]")]
  have hcommas : variablesOf (env "GET, PUT") = .ok (found "GET, PUT") :=
    eq_ok_of_toOption (by decide +kernel)
  have hempty : variablesOf (env "") = .ok (found "") := eq_ok_of_toOption (by decide +kernel)
  have hfound' : variablesOf [("API__CORS_ALLOW_HEADERS", "[\"a\"]")]
      = .ok [("api__cors_allow_headers", "[\"a\"]")] := eq_ok_of_toOption (by decide +kernel)
  have loads : ofEnvironment [("API__CORS_ALLOW_HEADERS", "[\"a\"]")]
      = .ok { api := { allowedHeaders := ["a"] } } := eq_ok_of_toOption (by decide +kernel)
  have hlist : "cors_allow_methods" ∈ originLists := by decide
  have hname : variableName apiGroup "cors_allow_methods" = "api__cors_allow_methods" :=
    (variableName_of_mem_originLists hlist).trans (by decide)
  have hagree (t : Wide) : AgreeApartFrom (variableName apiGroup "cors_allow_methods") (found t)
      [("api__cors_allow_headers", "[\"a\"]")] := by
    simp [AgreeApartFrom, found, hname, Wide.ofText_inj]
  have hholds (t : Wide) :
      Json.get? (found t) (variableName apiGroup "cors_allow_methods") = some t := by
    simp [Json.get?, found, hname]
  have hwhole (t : Wide) : Json.get? (found t) (apiGroup.name : Wide) = none := by
    simp [Json.get?, found, apiGroup, Wide.ofText_inj]
  have notNulled (t : Wide) : ¬ IsNulled apiGroup (found t) := by
    rintro ⟨_, hget, _⟩
    cases (hwhole t).symm.trans hget
  constructor
  · exact ((list_variable_read hcommas hfound' (hagree _) loads hlist (hholds _)).2
      (notNulled _)).1 .malformed (by decide +kernel) rfl
  · obtain ⟨a, ha, hnone⟩ :=
      ((list_variable_read hempty hfound' (hagree _) loads hlist (hholds _)).2 (notNulled _)).2 rfl
    refine ⟨a, ha, hnone ?_⟩
    rw [given?, wholeFields?, hwhole, hholds]
    simp [spelled?, Json.put, lower_of_mem_originLists _ hlist]

/-- A comma-separated text of origins is refused, though it could be cut. -/
theorem comma_list_refused :
    let env : Environment := [("API__CORS_ALLOW_ORIGINS", "a,b")]
    Json.read "a,b" deepestSetting = .error .malformed ∧
      Text.commaList "a,b" = ["a", "b"] ∧
      ¬ ∃ s, ofEnvironment env = .ok s ∧ s.api.allowedOrigins = Text.commaList "a,b" := by
  intro env
  refine ⟨rfl, by decide +kernel, ?_⟩
  rintro ⟨s, hs, _⟩
  have hnone : (ofEnvironment env).toOption = none := by decide +kernel
  rw [hs] at hnone
  cases hnone

end Lists

end Settings

end CardCatalog
