import CardCatalog.Proofs.Listings
import CardCatalog.Proofs.Loading
import CardCatalog.Proofs.ShortIntegers

/-!
# The cap of a page

Settings bound the limit that a request may give, and have a limit for requests that give none.  The
one is not checked against the other, so a page may be longer than a request may ask for.  Its links
carry its limit, which then is refused by the route that answered them.

Results: the limit in force, the pages that it makes, and whether their links are accepted again
(`page_cap`); which limits the routes let through (`exists_accepted_of_asks`); and settings whose
pages are not capped (`page_above_cap`).
-/

namespace CardCatalog

open Calendar (Date)
open Validation (Checked Rule)

section Pages

variable {α β : Type} {q : PageRequest}

/-- Whether a page has no more rows than its limit, and links of the same limit. -/
structure Page.IsWithin (q : PageRequest) (p : Page α) : Prop where
  size : (p.results.length : Int) ≤ q.effectiveLimit
  links : ∀ l ∈ p.next?.toList ++ p.previous?.toList, l.limit = q.effectiveLimit ∧ 0 ≤ l.offset

/-- A page whose rows are all answered keeps its size and its links. -/
theorem Page.IsWithin.mapM
    {p : Page α} {f : α → Except Fault β} {p' : Page β}
    (h : p.IsWithin q) (hmap : p.mapM f = .ok p') :
    p'.IsWithin q := by
  obtain ⟨results, hresults, rfl⟩ := map_eq_ok_iff.1 hmap
  exact ⟨by rw [length_of_mapM_eq_ok hresults]; exact h.size, h.links⟩

theorem isWithin_inMemory
    (xs : List α) (positive : 1 ≤ q.effectiveLimit) :
    (Page.inMemory xs q).IsWithin q := by
  have hnatural := q.effectiveOffset_nonneg
  rw [inMemory_eq xs positive]
  refine ⟨?_, fun l hl => ?_⟩
  · show ((q.cut xs).length : Int) ≤ _
    rw [PageRequest.cut, List.length_take]
    omega
  · unfold PageRequest.pageOf at hl
    simp only [List.mem_append, Option.mem_toList, Option.ite_none_right_eq_some,
      Option.some.injEq] at hl
    rcases hl with ⟨_, rfl⟩ | ⟨_, rfl⟩
    · exact ⟨rfl, by dsimp only; omega⟩
    · exact ⟨rfl, Int.le_max_left _ _⟩

theorem isWithin_query
    {count : Except Fault Int} {fetch : Int → Int → Except Fault (List α)} {p : Page α}
    (positive : 1 ≤ q.effectiveLimit)
    (fetches : ∀ offset rows, fetch offset q.effectiveLimit = .ok rows →
      (rows.length : Int) ≤ q.effectiveLimit)
    (h : Page.query q count fetch = .ok p) :
    p.IsWithin q := by
  have hnatural := q.effectiveOffset_nonneg
  obtain ⟨w, hw, h⟩ := bind_eq_ok_iff.1 h
  obtain ⟨total, _, h⟩ := bind_eq_ok_iff.1 h
  rw [PageRequest.window_eq positive] at hw
  cases hw
  obtain ⟨rows, hrows, rfl⟩ : ∃ rows, (rows.length : Int) ≤ q.effectiveLimit ∧
      p = Window.page ⟨q.effectiveLimit, q.effectiveOffset.fdiv q.effectiveLimit,
        q.effectiveOffset.fdiv q.effectiveLimit * q.effectiveLimit⟩ total rows := by
    split at h
    · obtain ⟨rows, hrows, h⟩ := bind_eq_ok_iff.1 h
      exact ⟨rows, fetches _ rows hrows, (Except.ok.inj h).symm⟩
    · exact ⟨[], (by decide : (0 : Int) ≤ 1).trans positive, (Except.ok.inj h).symm⟩
  have hindex : 0 ≤ q.effectiveOffset.fdiv q.effectiveLimit :=
    Int.fdiv_nonneg hnatural (by omega)
  refine ⟨hrows, fun l hl => ?_⟩
  unfold Window.page at hl
  simp only [List.mem_append, Option.mem_toList, Option.ite_none_right_eq_some,
    Option.some.injEq] at hl
  rcases hl with ⟨_, rfl⟩ | ⟨hlater, rfl⟩
  · exact ⟨rfl, Int.mul_nonneg (by omega) (by omega)⟩
  · exact ⟨rfl, Int.mul_nonneg (by omega) (by omega)⟩

end Pages

section Operations

/-- Whether an operation answers the page of a request. -/
inductive Operation.IsPage (q : PageRequest) : Operation → Prop
  | lookups (k : Kind) (f : LookupFilter) : IsPage q (.pageLookups k f q)
  | records (f : RecordFilter) : IsPage q (.pageRecords f q)
  | recordsBy (k : Kind) (id : Int) : IsPage q (.recordsBy k id q)

/-- The number of rows on an answered page, and its links. -/
def Answer.sheet? : Answer → Option (Nat × List PageLink)
  | .lookupPage p => some (p.results.length, p.next?.toList ++ p.previous?.toList)
  | .recordPage p => some (p.results.length, p.next?.toList ++ p.previous?.toList)
  | _ => none

/-- A page that is answered has no more rows than its limit, and links of the same limit. -/
theorem sheet_of_run
    {q : PageRequest} {op : Operation} {today : Date} {s t : Store} {a : Answer}
    (positive : 1 ≤ q.effectiveLimit) (page : op.IsPage q)
    (h : op.run today s = .ok (a, t)) :
    ∃ n links, a.sheet? = some (n, links) ∧ (n : Int) ≤ q.effectiveLimit ∧
      ∀ l ∈ links, l.limit = q.effectiveLimit ∧ 0 ≤ l.offset := by
  cases page with
  | lookups k f =>
      obtain ⟨p, hp, heq⟩ := map_eq_ok_iff.1 h
      cases heq
      have hwithin : p.IsWithin q := by
        refine isWithin_query positive (fun offset rows hrows => ?_) hp
        obtain ⟨_, _, hrows⟩ := bind_eq_ok_iff.1 hrows
        obtain ⟨all, _, hrows⟩ := bind_eq_ok_iff.1 hrows
        cases hrows
        rw [fetched, if_neg (by omega), List.length_take]
        omega
      exact ⟨_, _, rfl, hwithin.size, hwithin.links⟩
  | records f =>
      obtain ⟨p, hp, heq⟩ := map_eq_ok_iff.1 h
      cases heq
      obtain ⟨rows, _, hp⟩ := bind_eq_ok_iff.1 hp
      have hwithin := (isWithin_inMemory rows positive).mapM hp
      exact ⟨_, _, rfl, hwithin.size, hwithin.links⟩
  | recordsBy k id =>
      obtain ⟨p, hp, heq⟩ := map_eq_ok_iff.1 h
      cases heq
      obtain ⟨_, _, hp⟩ := bind_eq_ok_iff.1 hp
      have hwithin := (isWithin_inMemory _ positive).mapM hp
      exact ⟨_, _, rfl, hwithin.size, hwithin.links⟩

end Operations

namespace Http

/-- Whether a link's fragment, behind any query, gives its limit to the route again. -/
def AcceptsLimit (settings : Settings) (l : PageLink) : Prop :=
  ∀ (r : Request) (query fields : String),
    l.toText = "?" ++ fields → r.query = joined query fields →
    ∃ limit, queryValue r "limit" (Rule.atMost settings.pagination.maxLimit) = .valid (some limit) ∧
      limit.val = l.limit

/-- The limit of a link is accepted again exactly if it does not lie above the bound, which is short
itself. -/
theorem acceptsLimit_iff
    {settings : Settings} {l : PageLink}
    (short : Number.IsShort settings.pagination.maxLimit.val)
    (positive : 1 ≤ l.limit) (natural : 0 ≤ l.offset) :
    AcceptsLimit settings l ↔ l.limit ≤ settings.pagination.maxLimit.val := by
  obtain ⟨limit, hlimit⟩ := Int.eq_ofNat_of_zero_le (by omega : 0 ≤ l.limit)
  obtain ⟨offset, hoffset⟩ := Int.eq_ofNat_of_zero_le natural
  have hl : l = ⟨limit, offset⟩ := by
    cases l
    cases hlimit
    cases hoffset
    rfl
  subst hl
  constructor
  · intro h
    obtain ⟨n, _, hn⟩ := h { method := "GET", path := default, query := pageFields ⟨limit, offset⟩ }
      "" _ (toText_eq _) rfl
    exact hn ▸ n.property
  · intro hle r query fields htext hquery
    cases (String.append_right_inj "?").1 ((toText_eq _).symm.trans htext)
    have hlink : AsksForPage limit (pageFields ⟨limit, offset⟩) (some offset) := .link offset
    have hvalue : lastValue? (queryFields r.query) "limit" = some (toString (limit : Int)) := by
      rw [hquery, queryFields_joined, lastValue?_append,
        hlink.lastValue?_limit, Option.some_or]
    have hshort : Number.IsShort (limit : Int) := by
      unfold Number.IsShort at short ⊢
      refine Nat.lt_of_le_of_lt ?_ short
      dsimp only at hle
      omega
    refine ⟨⟨limit, hle⟩, ?_, rfl⟩
    rw [queryValue_of_lastValue? _ hvalue, Rule.atMost,
      Validation.integer_toString_of_isShort _ hshort, Checked.andThen, dif_pos hle]
    rfl

/-- The limit of a page that a request asks for is one that its route lets through. -/
theorem exists_accepted_of_asks
    {settings : Settings} {r : Request} {op : Operation} {q : PageRequest}
    (asks : r.Asks settings op) (page : op.IsPage q) :
    ∃ limit? offset?, q = settings.pageRequest limit? offset? ∧
      ∀ l ∈ limit?, l ≤ settings.pagination.maxLimit.val := by
  obtain ⟨e, ps, status, what, _, planned⟩ := asks
  have haccepted {limit? offset? : Option Int}
      (h : queryPage settings r = .valid (limit?, offset?)) :
      ∀ l ∈ limit?, l ≤ settings.pagination.maxLimit.val := by
    obtain ⟨g, o?, hg, _, hpair⟩ := Validation.ap_eq_valid_iff.1 h
    obtain ⟨bounded?, _, rfl⟩ := Validation.map_eq_valid_iff.1 hg
    cases hpair
    intro l hl
    obtain ⟨bounded, _, rfl⟩ := Option.map_eq_some_iff.1 hl
    exact bounded.property
  cases e
  all_goals
    simp only [plan, Validation.ap_eq_valid_iff, Validation.map_eq_valid_iff, Plan.onRecord,
      Checked.valid.injEq, reduceCtorEq, Plan.operation.injEq] at planned
  case listRecords =>
    obtain ⟨_, ⟨limit?, offset?⟩, ⟨_, _, rfl⟩, hpage, hop⟩ := planned
    cases limit? <;> cases offset? <;> cases hop <;> cases page
    all_goals exact ⟨_, _, rfl, haccepted hpage⟩
  case recordsBy =>
    obtain ⟨_, ⟨limit?, offset?⟩, ⟨_, _, ⟨_, _, rfl⟩, _, rfl⟩, hpage, hop⟩ := planned
    cases hop
    cases page
    exact ⟨limit?, offset?, rfl, haccepted hpage⟩
  case listLookups =>
    obtain ⟨_, ⟨limit?, offset?⟩, ⟨_, _, ⟨_, _, rfl⟩, _, rfl⟩, hpage, hop⟩ := planned
    cases limit? <;> cases offset? <;> cases hop <;> cases page
    all_goals exact ⟨_, _, rfl, haccepted hpage⟩
  -- all other endpoints lead to operations that answer no page
  all_goals
    cases page <;> simp at planned

end Http

namespace Settings

section Cap

variable {found : Environment} {s : Settings}

/-- What counts for a field is short, if it is an integer: it is a text, or stands in JSON. -/
theorem isShort_of_given?
    {g : Group} {field : String} {j : Json}
    (h : given? g found field = some j) :
    ∀ n, j = .int n → Number.IsShort n := by
  obtain ⟨fields, hwhole, h⟩ := Option.bind_eq_some_iff.1 h
  have hshort : Json.AreShort fields := by
    unfold wholeFields? at hwhole
    split at hwhole
    · cases hwhole
      exact Json.areShort_nil
    · split at hwhole
      · rename_i hread
        cases hwhole
        exact Json.areShort_of_read hread
      · cases hwhole
  have hspelled {fs : List (Text.Wide × Json)} (hfs : Json.AreShort fs)
      (h : spelled? field fs = some j) : ∀ n, j = .int n → Number.IsShort n := by
    obtain ⟨f, hf, rfl⟩ := Option.map_eq_some_iff.1 h
    exact hfs f (List.mem_filter.1 (List.mem_of_getLast? hf)).1
  split at h
  · rename_i t _
    exact hspelled (Json.areShort_put _ hshort (show Json.HasShort (.text t) from trivial)) h
  · exact hspelled hshort h

theorem maxLimit_of_checkGroup
    {found? : Option Json} {p : PaginationSettings}
    (h : checkGroup paginationGroup paginationRule {} found? = .valid p) :
    counted [.field "pagination", .field "max_limit"] (Rule.atLeast 1) ⟨1000, by decide⟩
      (fieldOf? found? "max_limit") = .valid p.maxLimit := by
  obtain ⟨rfl, rfl⟩ | ⟨fields, rfl, hchecked⟩ := checkGroup_object_eq_valid_iff.1 h
  · rfl
  · simp only [withDefault_eq_counted, Validation.ap_eq_valid_iff, Validation.map_eq_valid_iff]
      at hchecked
    obtain ⟨_, _, ⟨_, _, rfl⟩, hmax, rfl⟩ := hchecked
    exact hmax

/-- The bound of limits is short, as it is read. -/
theorem isShort_maxLimit
    {env : Environment}
    (loads : ofEnvironment env = .ok s) :
    Number.IsShort s.pagination.maxLimit.val := by
  obtain ⟨found, hfound, hloads⟩ := bind_eq_ok_iff.1 loads
  obtain ⟨_, _, _, pagination?, _, _, hpagination, _, _, _, p, _, _, hvalid, rfl⟩ :=
    ofVariables_eq_ok_iff.1 hloads
  have hmax := counted_of_found isNamed_paginationGroup (by decide)
    (isLowered_of_variablesOf hfound) rfl (refusesObjects_atLeast 1) hpagination
    (maxLimit_of_checkGroup hvalid)
  show Number.IsShort p.maxLimit.val
  cases hgiven : given? paginationGroup found "max_limit" with
  | none =>
      rw [hgiven] at hmax
      rw [← Checked.valid.inj hmax]
      exact Validation.isShort_of_lt (by decide)
  | some j =>
      rw [hgiven] at hmax
      exact Validation.isShort_of_atLeast (isShort_of_given? hgiven) hmax

/-- The limit in force does not lie above a bound that is kept by the limit asked for, if the default
does not, or is not taken. -/
theorem effectiveLimit_le_iff
    {limit? : Option Int} {most : Int}
    (accepted : ∀ l ∈ limit?, l ≤ most) (offset? : Option Int) (defaultLimit : Int) :
    (PageRequest.mk limit? offset? defaultLimit).effectiveLimit ≤ most ↔
      defaultLimit ≤ most ∨ ∃ l ∈ limit?, 0 < l := by
  unfold PageRequest.effectiveLimit
  cases limit? with
  | none => simp
  | some l =>
      have hle := accepted l rfl
      by_cases hl : l ≤ 0
      · simp [hl]
      · simp only [hl, if_false]
        exact ⟨fun _ => .inr ⟨l, rfl, by omega⟩, fun _ => hle⟩

/-- Of settings that load, every page has a positive limit.  It does not lie above the bound of limits
if the default does not, or if a positive limit is given; pages have no more rows than it, and links
with it, which are accepted again in just this case. -/
theorem page_cap
    {env : Environment} {limit? : Option Int}
    (loads : ofEnvironment env = .ok s)
    (accepted : ∀ l ∈ limit?, l ≤ s.pagination.maxLimit.val)
    (offset? : Option Int) :
    let q := s.pageRequest limit? offset?
    1 ≤ q.effectiveLimit ∧ (∃ w, q.window = .ok w) ∧
      (q.effectiveLimit ≤ s.pagination.maxLimit.val ↔
        s.pagination.defaultLimit.val ≤ s.pagination.maxLimit.val ∨ ∃ l ∈ limit?, 0 < l) ∧
      ∀ (op : Operation) (today : Date) (store t : Store) (a : Answer),
        op.IsPage q → op.run today store = .ok (a, t) →
        ∃ n links, a.sheet? = some (n, links) ∧ (n : Int) ≤ q.effectiveLimit ∧
          ∀ l ∈ links, l.limit = q.effectiveLimit ∧
            (Http.AcceptsLimit s l ↔ q.effectiveLimit ≤ s.pagination.maxLimit.val) := by
  intro q
  have positive : 1 ≤ q.effectiveLimit := q.effectiveLimit_pos s.pagination.defaultLimit.property
  refine ⟨positive, ?_, ?_, fun op today store t a page hrun => ?_⟩
  · have hzero : ¬ q.effectiveLimit = 0 := by omega
    exact ⟨_, by rw [PageRequest.window]; exact if_neg hzero⟩
  · exact effectiveLimit_le_iff accepted offset? s.pagination.defaultLimit.val
  · obtain ⟨n, links, hsheet, hsize, hlinks⟩ := sheet_of_run positive page hrun
    refine ⟨n, links, hsheet, hsize, fun l hl => ?_⟩
    obtain ⟨hlimit, hoffset⟩ := hlinks l hl
    refine ⟨hlimit, ?_⟩
    rw [← hlimit]
    exact Http.acceptsLimit_iff (isShort_maxLimit loads) (by omega) hoffset

/-- A bound of its own caps the page of a limit below it. -/
theorem page_cap_of_fifty :
    let env : Environment := [("PAGINATION__MAX_LIMIT", "50")]
    ∃ s, ofEnvironment env = .ok s ∧
      1 ≤ (s.pageRequest (some 7) none).effectiveLimit ∧
      (s.pageRequest (some 7) none).effectiveLimit ≤ 50 := by
  intro env
  have loads : ofEnvironment env = .ok { pagination := { maxLimit := ⟨50, by decide⟩ } } :=
    eq_ok_of_toOption (by decide +kernel)
  have accepted : ∀ l ∈ some (7 : Int), l ≤ 50 := by simp
  obtain ⟨positive, _, hcap, _⟩ := page_cap loads accepted none
  exact ⟨_, loads, positive, hcap.2 (.inl (by decide))⟩

/-- A default above the bound of limits makes pages longer than a request may ask for, and a link that
the route refuses. -/
theorem page_above_cap :
    let env : Environment := [("PAGINATION__DEFAULT_LIMIT", "2000")]
    ∃ s, ofEnvironment env = .ok s ∧
      s.pagination.maxLimit.val = 1000 ∧ (s.pageRequest none none).effectiveLimit = 2000 ∧
      ∃ link : PageLink,
        (Page.inMemory (List.replicate 2001 ()) (s.pageRequest none none)).next? = some link ∧
        ¬ Http.AcceptsLimit s link := by
  intro env
  have loads : ofEnvironment env = .ok { pagination := { defaultLimit := ⟨2000, by decide⟩ } } :=
    eq_ok_of_toOption (by decide +kernel)
  refine ⟨_, loads, rfl, rfl, ⟨2000, 2000⟩, ?_, ?_⟩
  · rw [inMemory_eq _ (by decide), List.length_replicate]
    rfl
  · rw [Http.acceptsLimit_iff (isShort_maxLimit loads) (by decide) (by decide)]
    decide

end Cap

end Settings
end CardCatalog
