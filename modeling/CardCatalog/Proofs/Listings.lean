import CardCatalog.Proofs.NoTrace
import CardCatalog.Proofs.Pages
import CardCatalog.Proofs.Presentable
import CardCatalog.Proofs.QueryFields
import CardCatalog.Proofs.Requests
import CardCatalog.Proofs.Searching
import CardCatalog.Proofs.Soundness

/-!
# Listings and their pages

Reference rows and records are listed by a filter, all at once or page by page.  The pages of
reference rows are cut by windows and fetched from the store, and those of records are cut out of
all that match; where the offset is a multiple of the limit, this is the same.  A request asks for a
page if a limit, or a limit and an offset, stand behind its criteria.

Results: what a listing answers, and the pages that are cut out of it (`Store.lists_lookups`,
`Store.Sound.exists_listed`), and that requests for it are answered so (`asksForListing_lookups`,
`asksForListing_records`).
-/

namespace CardCatalog

open Calendar (Date)
open Text (Wide)
open Validation (Checked Rule)

section Operations

/-- One page of a listing. -/
def Operation.atPage (q : PageRequest) : Operation → Operation
  | .listLookups k f => .pageLookups k f q
  | .listRecords f => .pageRecords f q
  | op => op

/-- A page of items that are JSON already. -/
def PageRequest.pageJson (q : PageRequest) (items : List Json) : Json :=
  (q.pageOf items.length (q.cut items)).toJson id

/-- Whether a page is one of equal pages, and its limit can be fetched with. -/
structure PageRequest.IsRegular (q : PageRequest) : Prop where
  positive : 1 ≤ q.effectiveLimit
  aligned : q.effectiveLimit ∣ q.effectiveOffset
  limit : Number.InRange q.effectiveLimit

theorem PageRequest.IsRegular.of_natural
    {q : PageRequest} {limit offset : Nat}
    (hlimit : q.effectiveLimit = limit) (hoffset : q.effectiveOffset = offset)
    (positive : 1 ≤ limit) (range : Number.InRange limit) (aligned : limit ∣ offset) :
    q.IsRegular := by
  refine ⟨?_, ?_, ?_⟩
  · rw [hlimit]
    omega
  · rw [hlimit, hoffset]
    exact Int.natCast_dvd_natCast.2 aligned
  · rw [hlimit]
    exact range

/-- Whether an operation answers the given items, and pages that are cut out of them.  A place
beyond the stored range cannot be fetched from. -/
structure Operation.Lists (op : Operation) (today : Date) (s : Store) (items : List Json) :
    Prop where
  all : (Http.Plan.operation op).run today s = (.ok (.list items), s)
  page (q : PageRequest) : q.IsRegular → Number.InRange items.length →
    (Http.Plan.operation (op.atPage q)).run today s = (.ok (q.pageJson items), s)

theorem toJson_pageOf
    {α : Type} (f : α → Json) (q : PageRequest) (rows : List α) :
    (q.pageOf rows.length (q.cut rows)).toJson f = q.pageJson (rows.map f) := by
  unfold PageRequest.pageJson Page.toJson PageRequest.pageOf PageRequest.cut
  simp only [List.length_map, List.map_id, List.map_take, List.map_drop]

namespace Store

variable {s : Store}

/-- A page of reference rows is cut out of all rows that the filter finds. -/
theorem pageLookups_eq
    {k : Kind} {f : LookupFilter} {q : PageRequest} {rows : List Lookup}
    (found : s.listLookups k f = .ok rows)
    (regular : q.IsRegular)
    (few : Number.InRange rows.length) :
    s.pageLookups k f q = .ok (q.pageOf rows.length (q.cut rows)) := by
  have hpositive := regular.positive
  have hnatural := q.effectiveOffset_nonneg
  unfold pageLookups
  rw [found]
  refine query_eq _ regular.positive regular.aligned fun hbefore => ?_
  have hrange : checkRange [q.effectiveOffset, q.effectiveLimit] = .ok () := by
    refine checkRange_eq_ok_iff.2 fun n hn => ?_
    rcases List.mem_pair.1 hn with rfl | rfl
    · exact ⟨by omega, hbefore.trans few.2⟩
    · exact regular.limit
  rw [hrange, ok_bind_eq, ok_bind_eq, fetched, if_neg (by omega)]
  rfl

/-- The reference rows that a filter accepts are listed. -/
theorem lists_lookups
    (s : Store) (today : Date) (k : Kind) {f : LookupFilter}
    (h : f.IsSearchable) :
    (Operation.listLookups k f).Lists today s
      (((s.lookupRows k).filter f.accepts).map Lookup.toJson) where
  all := by
    have hrun : Operation.run today (.listLookups k f) s
        = .ok (.lookups ((s.lookupRows k).filter f.accepts), s) :=
      congrArg (Except.map _) (s.listLookups_eq k h)
    exact run_plan_of_reading hrun
  page q regular few := by
    have hrun : Operation.run today (.pageLookups k f q) s = .ok (.lookupPage _, s) :=
      congrArg (Except.map _) (pageLookups_eq (s.listLookups_eq k h) regular (by simpa using few))
    rw [← toJson_pageOf]
    exact run_plan_of_reading hrun

/-- Whether every record that a filter accepts can be presented. -/
def Presents (s : Store) (f : RecordFilter) : Prop :=
  ∀ e ∈ s.records.rows, f.accepts e.1 e.2 = true →
    ∀ a, s.assemble e.1 e.2 = .ok a → Http.isPresentable a = true

/-- In a sound store, the records that a filter accepts are listed if all of them can be
presented. -/
theorem Sound.exists_listed
    {f : RecordFilter}
    (h : s.Sound)
    (today : Date)
    (searchable : f.IsSearchable)
    (presented : s.Presents f) :
    ∃ items, (Operation.listRecords f).Lists today s items := by
  obtain ⟨found, assembled⟩ : ∃ found,
      (s.records.rows.filter fun e => f.accepts e.1 e.2).mapM (fun e => s.assemble e.1 e.2)
        = .ok found :=
    exists_mapM_eq_ok fun e he =>
      h.exists_assemble (s.records.mem_rows_iff.1 (List.mem_filter.1 he).1)
  have hpresentable : ∀ a ∈ found, Http.isPresentable a = true := by
    intro a ha
    obtain ⟨e, he, hassemble⟩ := mem_of_mapM_eq_ok assembled ha
    exact presented e (List.mem_filter.1 he).1 (List.mem_filter.1 he).2 a hassemble
  refine ⟨found.map Aggregate.toJson, ?_, fun q regular _ => ?_⟩
  · have hlist : s.listRecords f = .ok found := by
      rw [listRecords, s.matchingRecords_eq searchable, ok_bind_eq, assembled]
    have hrun : Operation.run today (.listRecords f) s = .ok (.records found, s) :=
      congrArg (Except.map _) hlist
    rw [run_plan_of_reading hrun, Http.ofAnswer, Http.ofRecords_of_forall hpresentable]
  · have hpage : s.pageRecords f q = .ok (q.pageOf found.length (q.cut found)) := by
      rw [pageRecords, s.matchingRecords_eq searchable, ok_bind_eq, mapM_inMemory assembled,
        inMemory_eq found regular.positive]
    have hrun : Operation.run today (.pageRecords f q) s = .ok (.recordPage _, s) :=
      congrArg (Except.map _) hpage
    have hcut : ∀ a ∈ q.cut found, Http.isPresentable a = true := fun a ha =>
      hpresentable a (List.mem_of_mem_drop (List.mem_of_mem_take ha))
    show (Http.Plan.operation (.pageRecords f q)).run today s = _
    rw [run_plan_of_reading hrun, ← toJson_pageOf]
    exact congrArg (·, s) (Http.ofRecords_of_forall hcut _)

end Store
end Operations

namespace Http

section Queries

/-- A query with further fields behind its own. -/
def joined (query fields : String) : String :=
  if query = "" then fields else query ++ "&" ++ fields

theorem queryFields_joined (query fields : String) :
    queryFields (joined query fields) = queryFields query ++ queryFields fields := by
  unfold joined
  split
  · rename_i hnone
    rw [hnone]
    rfl
  · exact queryFields_append query fields

/-- The field that limits a listing. -/
def limitField (limit : Nat) : String :=
  "limit=" ++ toString (limit : Int)

/-- The fields of a link to a page: its fragment without the question mark. -/
def pageFields (l : PageLink) : String :=
  "limit=" ++ toString l.limit ++ "&" ++ ("offset=" ++ toString l.offset)

theorem toText_eq (l : PageLink) : l.toText = "?" ++ pageFields l := by
  have hlimit : "?limit=" = "?" ++ "limit=" := by decide
  have hoffset : "&offset=" = "&" ++ "offset=" := by decide
  unfold PageLink.toText pageFields
  rw [hlimit, hoffset]
  simp only [String.append_assoc]

theorem queryFields_limitField (limit : Nat) :
    queryFields (limitField limit) = [("limit", toString (limit : Int))] := by
  have hname : "limit=" = "limit" ++ "=" := by decide
  rw [limitField, hname, queryFields_number "limit" limit (by decide)]

theorem queryFields_pageFields (limit offset : Nat) :
    queryFields (pageFields ⟨limit, offset⟩)
      = [("limit", toString (limit : Int)), ("offset", toString (offset : Int))] := by
  have hname : "offset=" = "offset" ++ "=" := by decide
  have hlimit := queryFields_limitField limit
  unfold pageFields
  rw [queryFields_append]
  dsimp only
  rw [← limitField, hlimit, hname, queryFields_number "offset" offset (by decide)]
  rfl

/-- The fields that ask for a page: a limit, for the first one, or the limit and the offset of a
link. -/
inductive AsksForPage (limit : Nat) : String → Option Nat → Prop
  | first : AsksForPage limit (limitField limit) none
  | link (offset : Nat) : AsksForPage limit (pageFields ⟨limit, offset⟩) (some offset)

variable {r : Request} {limit : Nat} {fields : String} {offset? : Option Nat}

/-- Fields that ask for a page say nothing of other names. -/
theorem AsksForPage.lastValue?_eq_none
    (h : AsksForPage limit fields offset?)
    (name : String)
    (hlimit : name ≠ "limit") (hoffset : name ≠ "offset") :
    lastValue? (queryFields fields) name = none := by
  cases h with
  | first =>
      rw [queryFields_limitField]
      simp [lastValue?, Json.get?, hlimit.symm]
  | link offset =>
      rw [queryFields_pageFields]
      simp [lastValue?, Json.get?, hlimit.symm, hoffset.symm]

theorem queryValue_joined
    {α : Type} {name : String}
    (rule : Rule α)
    (h : lastValue? (queryFields fields) name = none) :
    queryValue { r with query := joined r.query fields } name rule = queryValue r name rule := by
  unfold queryValue
  dsimp only
  rw [queryFields_joined, lastValue?_append, h, Option.none_or]

/-- Fields that ask for a page leave a filter of reference rows as it is. -/
theorem AsksForPage.queryLookupFilter_eq
    (r : Request) (h : AsksForPage limit fields offset?) :
    queryLookupFilter { r with query := joined r.query fields } = queryLookupFilter r := by
  unfold queryLookupFilter
  rw [queryValue_joined _ (h.lastValue?_eq_none "id" (by decide) (by decide)),
    queryValue_joined _ (h.lastValue?_eq_none "name" (by decide) (by decide)),
    queryValue_joined _ (h.lastValue?_eq_none "link" (by decide) (by decide))]

/-- Fields that ask for a page leave a filter of records as it is. -/
theorem AsksForPage.queryRecordFilter_eq
    (r : Request) (h : AsksForPage limit fields offset?) :
    queryRecordFilter { r with query := joined r.query fields } = queryRecordFilter r := by
  have href (d : DirectKind) :
      queryValue { r with query := joined r.query fields } (Kind.direct d).column Rule.integer
        = queryValue r (Kind.direct d).column Rule.integer := by
    refine queryValue_joined _ (h.lastValue?_eq_none _ ?_ ?_)
    all_goals cases d <;> decide
  unfold queryRecordFilter
  simp only [href, queryValue_joined _ (h.lastValue?_eq_none "id" (by decide) (by decide)),
    queryValue_joined _ (h.lastValue?_eq_none "title" (by decide) (by decide))]

/-- A natural number within the stored range is a whole number, and written as one. -/
theorem integer_toString (place : List Validation.Step) {n : Nat} (h : Number.InRange n) :
    Rule.integer place (.text (toString (n : Int))) = .valid (n : Int) := by
  unfold Rule.integer
  dsimp only
  rw [Rule.ofText, Wide.text?_ofText]
  dsimp only
  rw [integerOfText_toString h]

theorem queryValue_of_lastValue?
    {α : Type} {name value : String}
    (rule : Rule α)
    (h : lastValue? (queryFields r.query) name = some value) :
    queryValue r name rule = some <$> rule [.field "query", .field name] (.text value) := by
  unfold queryValue
  rw [h]

/-- A value that is not given is not in the query. -/
theorem lastValue?_of_queryValue
    {α : Type} {name : String} {rule : Rule α}
    (h : queryValue r name rule = .valid none) :
    lastValue? (queryFields r.query) name = none := by
  cases hvalue : lastValue? (queryFields r.query) name with
  | none => rfl
  | some value =>
      rw [queryValue_of_lastValue? rule hvalue] at h
      obtain ⟨_, _, h⟩ := Validation.map_eq_valid_iff.1 h
      cases h

/-- The page that a query asks for by its last limit and offset. -/
theorem queryPage_of_lastValue?
    {settings : Settings}
    (hlimit : lastValue? (queryFields r.query) "limit" = some (toString (limit : Int)))
    (hoffset : lastValue? (queryFields r.query) "offset"
      = offset?.map fun offset => toString (offset : Int))
    (bounded : (limit : Int) ≤ settings.pagination.maxLimit)
    (range : Number.InRange limit) (near : ∀ offset ∈ offset?, Number.InRange (offset : Int)) :
    queryPage settings r = .valid (some (limit : Int), offset?.map Int.ofNat) := by
  have hatMost : queryValue r "limit" (Rule.atMost settings.pagination.maxLimit)
      = .valid (some ⟨limit, bounded⟩) := by
    rw [queryValue_of_lastValue? _ hlimit, Rule.atMost, integer_toString _ range, Checked.andThen,
      dif_pos bounded]
    rfl
  have hinteger : queryValue r "offset" Rule.integer = .valid (offset?.map Int.ofNat) := by
    cases offset? with
    | none =>
        unfold queryValue
        rw [hoffset]
        rfl
    | some offset =>
        rw [queryValue_of_lastValue? _ hoffset, integer_toString _ (near offset rfl)]
        rfl
  unfold queryPage
  rw [hatMost, hinteger]
  rfl

theorem AsksForPage.lastValue?_limit
    (h : AsksForPage limit fields offset?) :
    lastValue? (queryFields fields) "limit" = some (toString (limit : Int)) := by
  cases h with
  | first =>
      rw [queryFields_limitField]
      rfl
  | link offset =>
      rw [queryFields_pageFields]
      rfl

theorem AsksForPage.lastValue?_offset
    (h : AsksForPage limit fields offset?) :
    lastValue? (queryFields fields) "offset" = offset?.map fun offset => toString (offset : Int) := by
  cases h with
  | first =>
      rw [queryFields_limitField]
      rfl
  | link offset =>
      rw [queryFields_pageFields]
      rfl

/-- Fields that ask for a page do so behind a query that asks for none. -/
theorem AsksForPage.queryPage_eq
    {settings : Settings}
    (h : AsksForPage limit fields offset?)
    (unpaged : queryPage settings r = .valid (none, none))
    (bounded : (limit : Int) ≤ settings.pagination.maxLimit)
    (range : Number.InRange limit) (near : ∀ offset ∈ offset?, Number.InRange (offset : Int)) :
    queryPage settings { r with query := joined r.query fields }
      = .valid (some (limit : Int), offset?.map Int.ofNat) := by
  have hunset : lastValue? (queryFields r.query) "offset" = none := by
    obtain ⟨g, o?, hg, hoffset, hnone⟩ := Validation.ap_eq_valid_iff.1 unpaged
    obtain ⟨l?, _, rfl⟩ := Validation.map_eq_valid_iff.1 hg
    cases (Prod.mk.inj hnone).2
    exact lastValue?_of_queryValue hoffset
  refine queryPage_of_lastValue? ?_ ?_ bounded range near
  · rw [queryFields_joined, lastValue?_append, h.lastValue?_limit, Option.some_or]
  · rw [queryFields_joined, lastValue?_append, h.lastValue?_offset, hunset, Option.or_none]

end Queries

section Requests

/-- The request for a listing, below the base path. -/
def listing (settings : Settings) (path : Wide) (query : String) : Request where
  method := "GET"
  path := settings.api.basePath ++ path
  query := query

/-- The path of the reference rows of a kind. -/
def lookupsPath (k : Kind) : Wide :=
  Wide.ofText "/cards/" ++ Wide.ofText k.name

/-- The path of the records. -/
def recordsPath : Wide :=
  Wide.ofText "/cards/records"

/-- Whether a path and a query ask for an operation, and fields behind the query for its pages. -/
structure AsksForListing
    (settings : Settings) (path : Wide) (query : String) (op : Operation) : Prop where
  all (today : Date) (s : Store) :
    respond settings today (listing settings path query) s = (Plan.operation op).run today s
  page (today : Date) (s : Store) {limit : Nat} {fields : String} {offset? : Option Nat} :
    AsksForPage limit fields offset? →
    (limit : Int) ≤ settings.pagination.maxLimit → Number.InRange limit →
    (∀ offset ∈ offset?, Number.InRange (offset : Int)) →
    respond settings today (listing settings path (joined query fields)) s
      = (Plan.operation
          (op.atPage (settings.pageRequest (some (limit : Int)) (offset?.map Int.ofNat)))).run
          today s

variable {settings : Settings} {query : String}

theorem listing_joined (settings : Settings) (path : Wide) (query fields : String) :
    listing settings path (joined query fields)
      = { listing settings path query with
          query := joined (listing settings path query).query fields } := rfl

theorem pathKind_name (k : Kind) :
    pathKind [("kind", Wide.ofText k.name)] = .valid k := by
  cases k with
  | direct k => cases k <;> rfl
  | attached k => cases k <;> rfl

/-- The path of the reference rows of a kind, with a valid filter, asks for them. -/
theorem asksForListing_lookups
    {k : Kind} {f : LookupFilter}
    (asks : (listing settings (lookupsPath k) query).Asks settings (.listLookups k f)) :
    AsksForListing settings (lookupsPath k) query (.listLookups k f) := by
  obtain ⟨base, hbase⟩ := asks.exists_basePath
  obtain ⟨e, ps, status, what, found, planned⟩ := asks
  have hfound : find (routes settings.api.basePath) "GET"
      (settings.api.basePath ++ lookupsPath k)
        = .endpoint .listLookups [("kind", Wide.ofText k.name)] := by
    rw [hbase]
    exact find_lookups base k
  cases hfound.symm.trans found
  obtain ⟨g, ⟨limit?, offset?⟩, hg, hpage, hop⟩ := Validation.ap_eq_valid_iff.1 planned
  obtain ⟨g', f', hg', hfilter, rfl⟩ := Validation.ap_eq_valid_iff.1 hg
  obtain ⟨k', _, rfl⟩ := Validation.map_eq_valid_iff.1 hg'
  cases limit? <;> cases offset? <;> cases hop
  refine ⟨fun today s => respond_of_plan today s hfound ⟨nofun, nofun⟩ planned, ?_⟩
  intro today s limit fields offset? h bounded range near
  refine respond_of_plan today s hfound ⟨nofun, nofun⟩ ?_
  rw [listing_joined]
  unfold plan
  dsimp only
  rw [pathKind_name, h.queryLookupFilter_eq, hfilter, h.queryPage_eq hpage bounded range near]
  rfl

/-- The path of the records, with a valid filter, asks for them. -/
theorem asksForListing_records
    {f : RecordFilter}
    (asks : (listing settings recordsPath query).Asks settings (.listRecords f)) :
    AsksForListing settings recordsPath query (.listRecords f) := by
  obtain ⟨base, hbase⟩ := asks.exists_basePath
  obtain ⟨e, ps, status, what, found, planned⟩ := asks
  have hfound : find (routes settings.api.basePath) "GET" (settings.api.basePath ++ recordsPath)
      = .endpoint .listRecords [] := by
    rw [hbase]
    exact find_records base
  cases hfound.symm.trans found
  obtain ⟨g, ⟨limit?, offset?⟩, hg, hpage, hop⟩ := Validation.ap_eq_valid_iff.1 planned
  obtain ⟨f', hfilter, rfl⟩ := Validation.map_eq_valid_iff.1 hg
  cases limit? <;> cases offset? <;> cases hop
  refine ⟨fun today s => respond_of_plan today s hfound ⟨nofun, nofun⟩ planned, ?_⟩
  intro today s limit fields offset? h bounded range near
  refine respond_of_plan today s hfound ⟨nofun, nofun⟩ ?_
  rw [listing_joined]
  unfold plan
  dsimp only
  rw [h.queryRecordFilter_eq, hfilter, h.queryPage_eq hpage bounded range near]
  rfl

end Requests

end Http
end CardCatalog
