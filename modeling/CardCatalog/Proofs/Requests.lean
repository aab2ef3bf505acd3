import CardCatalog.Http.Server
import CardCatalog.Proofs.Routing
import CardCatalog.Proofs.ValidForms

/-!
# Requests

A request is told something at once, is turned down with the issues of its form, is sent to
another path, or asks for an operation.  What it asks for has been checked by the form of its
endpoint: the path and the query are texts, and the payload was let through by its rule.

Results: what becomes of a request (`result_respond`, `respond_of_plan`), and the care with which it
is turned into an operation (`careful_plan`).
-/

namespace CardCatalog

open Calendar (Date)
open Text (Code Wide)
open Validation (Checked Issue IsTitle Rule)

section Checks

/-- The checks of a filter of reference rows. -/
def LookupFilter.checks (f : LookupFilter) : List Check :=
  f.id?.toList.map .integer ++ (f.name?.toList ++ f.link?.toList).map .text

/-- The checks of a filter of records. -/
def RecordFilter.checks (f : RecordFilter) : List Check :=
  (f.id?.toList ++ f.title?.toList).map .text ++
    (DirectKind.all.filterMap f.refs.get).map .integer

/-- The checks of a page that is asked for. -/
def PageRequest.checks (q : PageRequest) : List Check :=
  (q.limit?.toList ++ q.offset?.toList).map .integer

/-- The texts and integers of an operation, as far as a request can ask for it. -/
def Operation.checks : Operation → List Check
  | .findLookup _ id => [.integer id]
  | .listLookups _ f => f.checks
  | .pageLookups _ f q => f.checks ++ q.checks
  | .enrol _ c => c.checks
  | .amend _ id p => .integer id :: p.checks
  | .remove _ id => [.integer id]
  | .loadRecord w | .hasRecord w | .deleteRecord w => [.text w]
  | .listRecords f => f.checks
  | .pageRecords f q => f.checks ++ q.checks
  | .recordsBy _ id q => .integer id :: q.checks
  | .addLinks w links => .text w :: links.flatMap LinkDraft.checks
  | .submit w sub => .text w :: sub.checks
  | .resubmit w sub => .text w :: sub.checks
  | _ => []

/-- What the forms of requests make sure of: records are written whole or get links, their
titles are short, sizes are numbers, and a page of reference rows has the default limit of the
settings. -/
def Operation.IsFormed (settings : Settings) : Operation → Prop
  | .createRecord .. | .reviseRecord .. => False
  | .addLinks _ links => ∀ l ∈ links, l.HasNumber
  | .submit w sub =>
      (∃ id, w = Wide.ofText id) ∧ IsTitle sub.details.title ∧ ∀ l ∈ sub.links, l.HasNumber
  | .resubmit _ sub => IsTitle sub.details.title
  | .pageLookups _ _ q => q.defaultLimit = settings.pagination.defaultLimit
  | _ => True

end Checks

namespace Http

section Paths

theorem text?_ne_none_iff {w : Wide} :
    w.text? ≠ none ↔ ∀ c ∈ w.codes, c.char? ≠ none := by
  constructor
  · intro h c hc
    obtain ⟨s, hs⟩ := Option.ne_none_iff_exists'.1 h
    rw [Wide.text?_eq_some_iff.1 hs] at hc
    obtain ⟨ch, _, rfl⟩ := List.mem_map.1 hc
    exact Option.some_ne_none ch
  · intro h
    rw [Wide.text?, ne_eq, Option.map_eq_none_iff]
    induction hw : w.codes generalizing w with
    | nil => exact Option.some_ne_none []
    | cons c codes ih =>
        rw [hw] at h
        obtain ⟨ch, hch⟩ := Option.ne_none_iff_exists'.1 (h c (by simp))
        have hrest := ih (w := ⟨codes⟩) (fun c' hc' => h c' (List.mem_cons_of_mem c hc')) rfl
        obtain ⟨chs, hchs⟩ := Option.ne_none_iff_exists'.1 hrest
        simp [List.mapM_cons, hch, hchs]

/-- Parameters are parts of the path. -/
theorem mem_of_matchPath?
    {pieces : List Piece} {cs : List Code} {ps : Parameters}
    (h : matchPath? pieces cs = some ps) :
    ∀ p ∈ ps, ∀ c ∈ p.2.codes, c ∈ cs := by
  induction pieces generalizing cs ps with
  | nil =>
      unfold matchPath? at h
      split at h
      · cases h
        intro p hp
        cases hp
      · cases h
  | cons piece pieces ih =>
      cases piece with
      | literal text =>
          unfold matchPath? at h
          obtain ⟨rest, hrest, h⟩ := Option.bind_eq_some_iff.1 h
          rw [dropLiteral?_eq_some_iff.1 hrest]
          exact fun p hp c hc => List.mem_append_right _ (ih h p hp c hc)
      | parameter name =>
          unfold matchPath? at h
          obtain ⟨n, _, h⟩ := List.exists_of_findSome?_eq_some h
          obtain ⟨found, hfound, rfl⟩ := Option.map_eq_some_iff.1 h
          intro p hp c hc
          rcases List.mem_cons.1 hp with rfl | hp
          · exact List.mem_of_mem_take hc
          · exact List.mem_of_mem_drop (ih hfound p hp c hc)

variable {routes : List Route} {method : String} {path : Wide}

/-- The parameters of a path that is a text are texts. -/
theorem whole_of_find_endpoint
    {e : Endpoint} {ps : Parameters}
    (h : find routes method path = .endpoint e ps) (whole : path.text? ≠ none) :
    ∀ p ∈ ps, p.2.text? ≠ none := by
  unfold find at h
  dsimp only at h
  split at h
  · rename_i target htarget
    cases h
    obtain ⟨r, _, hr⟩ := List.exists_of_findSome?_eq_some htarget
    split at hr
    · obtain ⟨ps', hps', hr⟩ := Option.map_eq_some_iff.1 hr
      cases hr
      intro p hp
      rw [text?_ne_none_iff] at whole ⊢
      exact fun c hc => whole c (mem_of_matchPath? hps' p hp c hc)
    · cases hr
  · split at h
    · cases h
    split at h
    · cases h
    · cases h

/-- The other path of a path that is a text is a text. -/
theorem whole_of_find_redirect
    {other : Wide}
    (h : find routes method path = .redirect other) (whole : path.text? ≠ none) :
    other.text? ≠ none := by
  have hother : other = otherSlashes path := by
    unfold find at h
    dsimp only at h
    split at h
    · rename_i target htarget
      obtain ⟨r, _, hr⟩ := List.exists_of_findSome?_eq_some htarget
      split at hr
      · obtain ⟨ps, _, hr⟩ := Option.map_eq_some_iff.1 hr
        rw [← hr] at h
        cases h
      · cases hr
    · split at h
      · cases h
      split at h
      · cases h
        rfl
      · cases h
  rw [text?_ne_none_iff] at whole
  rw [hother, text?_ne_none_iff]
  intro c hc
  unfold otherSlashes at hc
  split at hc
  · exact whole c (Text.mem_of_mem_dropTail hc)
  · rcases List.mem_append.1 hc with hc | hc
    · exact whole c hc
    · cases List.mem_singleton.1 hc
      nofun

end Paths

section Plans

/-- Whether a plan can be carried out: an operation has been formed, and has no text with half
of a pair if the request had none. -/
def Plan.IsSensible (settings : Settings) (clean : Prop) : Plan → Prop
  | .answer _ => True
  | .operation op status _ =>
      status < 400 ∧ op.IsFormed settings ∧ (clean → HasWholeTexts op.checks)

variable {α : Type} {clean : Prop} {P : α → Prop} {rule : Rule α} {settings : Settings}
  {ps : Parameters} {r : Request}

/-- What a path says under a name is a text if all its parameters are. -/
theorem whole_getD_get?
    (hps : ∀ p ∈ ps, p.2.text? ≠ none) (name : String) :
    ((Json.get? ps name).getD default).text? ≠ none := by
  cases h : Json.get? ps name with
  | none => exact (by simp [default, Wide.text?] : (default : Wide).text? ≠ none)
  | some w =>
      obtain ⟨p, hfind, rfl⟩ := Option.map_eq_some_iff.1 h
      exact hps p (List.mem_of_find?_eq_some hfind)

theorem careful_pathValue
    (hps : clean → ∀ p ∈ ps, p.2.text? ≠ none)
    (h : rule.Careful clean P) (name : String) :
    (pathValue ps name rule).Careful clean P :=
  h _ _ fun hclean => isEchoable_text_iff.2 (whole_getD_get? (hps hclean) name)

theorem careful_kindRule : kindRule.Careful clean fun _ => True := by
  intro place j hj
  unfold kindRule
  split
  · split
    · exact Checked.careful_valid trivial
    · exact Checked.careful_issue hj
  · exact Checked.careful_issue hj

theorem careful_pathKind (hps : clean → ∀ p ∈ ps, p.2.text? ≠ none) :
    (pathKind ps).Careful clean fun _ => True :=
  careful_pathValue hps careful_kindRule "kind"

theorem careful_pathLookup (hps : clean → ∀ p ∈ ps, p.2.text? ≠ none) :
    (pathLookup ps).Careful clean fun _ => True :=
  careful_pathValue hps Rule.careful_integer "lookup_id"

/-- A query is always a text. -/
theorem careful_queryValue (h : rule.Careful clean P) (name : String) :
    (queryValue r name rule).Careful clean fun a? => ∀ a ∈ a?, P a := by
  unfold queryValue
  split
  · exact Checked.careful_valid fun a ha => by cases ha
  · refine (h _ _ fun _ => isEchoable_text_iff.2 (by simp)).map fun a ha b hb => ?_
    cases hb
    exact ha

theorem careful_payloadValue
    (hpayload : ∀ j, r.payload = .value j → clean → isEchoable j = true)
    (h : rule.Careful clean P) :
    (payloadValue r rule).Careful clean P := by
  unfold payloadValue
  split
  · exact Checked.careful_issue fun _ => rfl
  · rename_i j hj
    exact h _ j (hpayload j hj)
  · exact Checked.careful_issue fun _ => rfl
  · exact Checked.careful_issue fun _ => rfl

theorem careful_queryPage :
    (queryPage settings r).Careful clean fun _ => True :=
  ((careful_queryValue (Rule.careful_atMost _) "limit").map fun _ _ _ _ => trivial).seq
    (careful_queryValue Rule.careful_integer "offset")

/-- The texts of a query under two names, one after the other. -/
theorem hasWholeTexts_queried
    {v? w? : Option Wide}
    (hv : ∀ v ∈ v?, clean → v.text? ≠ none) (hw : ∀ w ∈ w?, clean → w.text? ≠ none)
    (hclean : clean) :
    HasWholeTexts ((v?.toList ++ w?.toList).map .text) := by
  refine hasWholeTexts_texts fun u hu => ?_
  rcases List.mem_append.1 hu with hu | hu
  · exact hv u (Option.mem_toList.1 hu) hclean
  · exact hw u (Option.mem_toList.1 hu) hclean

theorem careful_queryLookupFilter :
    (queryLookupFilter r).Careful clean fun f => clean → HasWholeTexts f.checks := by
  refine (((careful_queryValue Rule.careful_integer "id").map ?_).seq
    (careful_queryValue Rule.careful_wideText "name")).seq
      (careful_queryValue Rule.careful_wideText "link")
  intro id? _ name? hname link? hlink hclean
  exact (hasWholeTexts_integers _).append (hasWholeTexts_queried hname hlink hclean)

theorem careful_queryRecordFilter :
    (queryRecordFilter r).Careful clean fun f => clean → HasWholeTexts f.checks := by
  have href (k : DirectKind) :
      (queryValue r (Kind.direct k).column Rule.integer).Careful clean fun _ => True :=
    (careful_queryValue Rule.careful_integer _).mono fun _ _ _ => trivial
  have hrefs : (PerDirect.mk
      <$> queryValue r (Kind.direct .director).column Rule.integer
      <*> queryValue r (Kind.direct .studio).column Rule.integer
      <*> queryValue r (Kind.direct .label).column Rule.integer
      <*> queryValue r (Kind.direct .series).column Rule.integer).Careful clean fun _ => True :=
    ((((href .director).map fun _ _ _ _ _ _ _ _ => trivial).seq (href .studio)).seq
      (href .label)).seq (href .series)
  refine (((careful_queryValue Rule.careful_wideText "id").map ?_).seq
    (careful_queryValue Rule.careful_wideText "title")).seq hrefs
  intro id? hid title? htitle refs _ hclean
  exact (hasWholeTexts_queried hid htitle hclean).append (hasWholeTexts_integers _)

/-- A request is turned into an operation with care. -/
theorem careful_plan
    (settings : Settings) (e : Endpoint)
    (hps : clean → ∀ p ∈ ps, p.2.text? ≠ none)
    (hpayload : ∀ j, r.payload = .value j → clean → isEchoable j = true) :
    (plan settings e ps r).Careful clean (Plan.IsSensible settings clean) := by
  have hid (hclean : clean) : HasWholeTexts [.text ((Json.get? ps "record_id").getD default)] :=
    hasWholeTexts_text (whole_getD_get? (hps hclean) "record_id")
  have hnumber (n : Int) : HasWholeTexts [.integer n] :=
    hasWholeTexts_integers [n]
  cases e with
  | health => exact Checked.careful_valid trivial
  | listRecords =>
      refine (careful_queryRecordFilter.map ?_).seq careful_queryPage
      rintro f hf ⟨limit?, offset?⟩ -
      have hpaged : (Plan.operation (.pageRecords f (settings.pageRequest limit? offset?))
          ).IsSensible settings clean :=
        ⟨by decide, trivial, fun hclean => (hf hclean).append (hasWholeTexts_integers _)⟩
      cases limit? with
      | some limit => exact hpaged
      | none =>
          cases offset? with
          | some offset => exact hpaged
          | none => exact ⟨by decide, trivial, hf⟩
  | recordIds =>
      exact Checked.careful_valid ⟨by decide, trivial, fun _ => hasWholeTexts_nil⟩
  | recordsBy =>
      refine (((careful_pathKind hps).map ?_).seq (careful_pathLookup hps)).seq careful_queryPage
      rintro k - i - page -
      exact ⟨by decide, trivial, fun _ => (hnumber i).append (hasWholeTexts_integers _)⟩
  | createRecord =>
      refine (careful_payloadValue hpayload Rule.careful_submission).map ?_
      rintro x ⟨⟨id, hx, _⟩, htitle, numbers, htexts⟩
      refine ⟨by decide, ⟨⟨id, hx⟩, htitle, numbers⟩, fun hclean => ?_⟩
      exact (hasWholeTexts_text (by simp [hx])).append (htexts hclean)
  | getRecord => exact Checked.careful_valid ⟨by decide, trivial, hid⟩
  | updateRecord =>
      refine (careful_payloadValue hpayload Rule.careful_resubmission).map ?_
      rintro sub ⟨htitle, htexts⟩
      exact ⟨by decide, htitle, fun hclean => (hid hclean).append (htexts hclean)⟩
  | addLinks =>
      refine (careful_payloadValue hpayload Rule.careful_links).map ?_
      rintro links ⟨numbers, htexts⟩
      exact ⟨by decide, numbers, fun hclean => (hid hclean).append (htexts hclean)⟩
  | deleteRecord => exact Checked.careful_valid ⟨by decide, trivial, hid⟩
  | recordCounts =>
      refine (careful_pathKind hps).map fun k _ => ?_
      exact ⟨by decide, trivial, fun _ => hasWholeTexts_nil⟩
  | listLookups =>
      refine (((careful_pathKind hps).map ?_).seq careful_queryLookupFilter).seq
        careful_queryPage
      rintro k - f hf ⟨limit?, offset?⟩ -
      have hpaged : (Plan.operation (.pageLookups k f (settings.pageRequest limit? offset?))
          ).IsSensible settings clean :=
        ⟨by decide, rfl, fun hclean => (hf hclean).append (hasWholeTexts_integers _)⟩
      cases limit? with
      | some limit => exact hpaged
      | none =>
          cases offset? with
          | some offset => exact hpaged
          | none => exact ⟨by decide, trivial, hf⟩
  | createLookup =>
      refine ((careful_pathKind hps).map ?_).seq
        (careful_payloadValue hpayload Rule.careful_candidate)
      intro k _ c hc
      exact ⟨by decide, trivial, hc⟩
  | getLookup =>
      refine ((careful_pathKind hps).map ?_).seq (careful_pathLookup hps)
      intro k _ i _
      exact ⟨by decide, trivial, fun _ => hnumber i⟩
  | updateLookup =>
      refine (((careful_pathKind hps).map ?_).seq (careful_pathLookup hps)).seq
        (careful_payloadValue hpayload Rule.careful_patch)
      intro k _ i _ p hp
      exact ⟨by decide, trivial, fun hclean => (hnumber i).append (hp hclean)⟩
  | deleteLookup =>
      refine ((careful_pathKind hps).map ?_).seq (careful_pathLookup hps)
      intro k _ i _
      exact ⟨by decide, trivial, fun _ => hnumber i⟩

end Plans

section Results

/-- Whether a request asks for an operation. -/
def Request.Asks (settings : Settings) (r : Request) (op : Operation) : Prop :=
  ∃ e ps status what,
    find (routes settings.api.basePath) r.method r.path = .endpoint e ps ∧
      plan settings e ps r = .valid (.operation op status what)

/-- A request asks for one operation at most. -/
theorem Request.Asks.eq
    {settings : Settings} {r : Request} {op op' : Operation}
    (h : r.Asks settings op) (h' : r.Asks settings op') :
    op = op' := by
  obtain ⟨e, ps, status, what, hfound, hvalid⟩ := h
  obtain ⟨e', ps', status', what', hfound', hvalid'⟩ := h'
  rw [hfound] at hfound'
  cases hfound'
  rw [hvalid] at hvalid'
  cases hvalid'
  rfl

/-- Operations are only asked for below a base path that is a text. -/
theorem Request.Asks.exists_basePath
    {settings : Settings} {r : Request} {op : Operation}
    (h : r.Asks settings op) :
    ∃ base, settings.api.basePath = Wide.ofText base := by
  obtain ⟨e, ps, status, what, found, planned⟩ := h
  refine basePath_of_find_endpoint found ?_
  rintro rfl
  cases planned

/-- What becomes of a request: it is told something at once, it is turned down, it is sent to
another path, or the operation that it asks for is run. -/
inductive Result
    (settings : Settings) (today : Date) (r : Request) (s : Store) : Response × Store → Prop
  | told (response : Response)
      (handled : response.status < 500) : Result settings today r s (response, s)
  | refused {e : Endpoint} {ps : Parameters} {first : Issue} {rest : List Issue}
      (found : find (routes settings.api.basePath) r.method r.path = .endpoint e ps)
      (invalid : plan settings e ps r = .invalid first rest) :
      Result settings today r s (.invalid (first :: rest), s)
  | redirected {path : Wide}
      (found : find (routes settings.api.basePath) r.method r.path = .redirect path) :
      Result settings today r s (redirected path r.query, s)
  | run {e : Endpoint} {ps : Parameters} {op : Operation} {status : Nat} {what : String}
      (found : find (routes settings.api.basePath) r.method r.path = .endpoint e ps)
      (valid : plan settings e ps r = .valid (.operation op status what)) :
      Result settings today r s ((Plan.operation op status what).run today s)

theorem result_respond (settings : Settings) (today : Date) (r : Request) (s : Store) :
    Result settings today r s (respond settings today r s) := by
  unfold respond
  split
  · rename_i e ps hfound
    unfold serve
    split
    · exact .told _ (by decide)
    · exact .told _ (by decide)
    · split
      · rename_i first rest hinvalid
        exact .refused hfound hinvalid
      · rename_i p hvalid
        cases p with
        | answer j => exact .told (.ok j) (by decide : 200 < 500)
        | operation op status what => exact .run hfound hvalid
  · exact .told _ (by decide)
  · rename_i path hfound
    exact .redirected hfound
  · exact .told _ (by decide)

/-- A request whose payload can be read is answered by what is planned for it. -/
theorem respond_of_plan
    {settings : Settings} {r : Request} {e : Endpoint} {ps : Parameters} {p : Plan}
    (today : Date) (s : Store)
    (found : find (routes settings.api.basePath) r.method r.path = .endpoint e ps)
    (legible : r.payload ≠ .malformed ∧ r.payload ≠ .unreadable)
    (planned : plan settings e ps r = .valid p) :
    respond settings today r s = p.run today s := by
  unfold respond
  rw [found]
  dsimp only
  unfold serve
  split
  · rename_i hpayload
    exact absurd hpayload legible.1
  · rename_i hpayload
    exact absurd hpayload legible.2
  · rw [planned]

/-- What a request asks for has been formed. -/
theorem isFormed_of_asks
    {settings : Settings} {r : Request} {op : Operation}
    (h : r.Asks settings op) :
    op.IsFormed settings := by
  obtain ⟨e, ps, status, what, _, hplan⟩ := h
  have hcareful : (plan settings e ps r).Careful False (Plan.IsSensible settings False) :=
    careful_plan settings e (fun h => h.elim) fun _ _ h => h.elim
  exact (hcareful.valid _ hplan).2.1

end Results

end Http
end CardCatalog
