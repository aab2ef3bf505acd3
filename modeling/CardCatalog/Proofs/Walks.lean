import CardCatalog.Proofs.Listings

/-!
# Walks through pages

Whoever wants a listing page by page follows the fragment of the next page until there is none.  A
fragment has a limit and an offset, and nothing else, so the criteria of the listing have to be put
in front of it.

Results: a walk that does so comes to an end, and its pages together are the listing without pages
(`listings_walked`).  A walk that follows the bare fragments does not stay in the listing, and some
listings fail (`walk_leaves_listing`).
-/

namespace CardCatalog
namespace Http

open Calendar (Date)
open Text (Wide)

section Walks

/-- A page as it is answered. -/
def pageAnswer (count next previous : Json) (items : List Json) : Json :=
  .object [("count", count), ("next", next), ("previous", previous), ("results", .list items)]

/-- A walk through the pages of a path, from a query on, and the items on the way.  It ends with a
page that has no next one; else it goes on with the fragment of the next page, behind the given
criteria. -/
inductive Walks
    (settings : Settings) (today : Date) (s : Store) (path : Wide) (criteria : String) :
    String → List Json → Prop
  | last {query : String} {count previous : Json} {items : List Json}
      (answered : respond settings today (listing settings path query) s
        = (.ok (pageAnswer count .null previous items), s)) :
      Walks settings today s path criteria query items
  | next {query fragment : String} {count previous : Json} {items rest : List Json}
      (answered : respond settings today (listing settings path query) s
        = (.ok (pageAnswer count (.text (Wide.ofText ("?" ++ fragment))) previous items), s))
      (further : Walks settings today s path criteria (joined criteria fragment) rest) :
      Walks settings today s path criteria query (items ++ rest)

variable {settings : Settings} {today : Date} {s : Store} {path : Wide} {criteria query : String}

/-- A walk is determined by where it begins. -/
theorem Walks.eq
    {items items' : List Json}
    (h : Walks settings today s path criteria query items)
    (h' : Walks settings today s path criteria query items') :
    items = items' := by
  induction h generalizing items' with
  | last answered =>
      cases h' with
      | last answered' =>
          rw [answered] at answered'
          cases answered'
          rfl
      | next answered' _ =>
          rw [answered] at answered'
          cases answered'
  | next answered _ ih =>
      cases h' with
      | last answered' =>
          rw [answered] at answered'
          cases answered'
      | next answered' further' =>
          rw [answered] at answered'
          simp only [Response.ok, pageAnswer, Prod.mk.injEq, Response.mk.injEq, Body.json.injEq,
            Json.object.injEq, List.cons.injEq, Json.text.injEq, Json.list.injEq, Wide.ofText_inj,
            String.append_right_inj, true_and, and_true] at answered'
          obtain ⟨_, rfl, _, rfl⟩ := answered'
          rw [ih further']

variable {op : Operation} {items : List Json} {limit : Nat}

/-- The page that begins behind some items, as it is answered. -/
theorem exists_pageAnswer
    {q : PageRequest} {start : Nat}
    (hlimit : q.effectiveLimit = limit) (hoffset : q.effectiveOffset = start)
    (items : List Json) :
    ∃ previous,
      q.pageJson items = pageAnswer (.int items.length)
        (if start + limit < items.length then
          .text (Wide.ofText ("?" ++ pageFields ⟨limit, (start + limit : Nat)⟩))
        else .null)
        previous ((items.drop start).take limit) := by
  unfold PageRequest.pageJson PageRequest.pageOf PageRequest.cut Page.toJson pageAnswer
  rw [hlimit, hoffset]
  simp only [Int.toNat_natCast, List.map_id]
  by_cases hnext : start + limit < items.length
  · have hnext' : (start : Int) + limit < items.length := by omega
    rw [if_pos hnext, if_pos hnext', ← toText_eq]
    exact ⟨_, rfl⟩
  · have hnext' : ¬ (start : Int) + limit < items.length := by omega
    rw [if_neg hnext, if_neg hnext']
    exact ⟨_, rfl⟩

/-- Whether every page that begins among the given items is answered with them. -/
def AnswersPages
    (settings : Settings) (today : Date) (s : Store) (path : Wide) (criteria : String)
    (limit : Nat) (items : List Json) : Prop :=
  ∀ fields offset?, AsksForPage limit fields offset? → limit ∣ offset?.getD 0 →
    (∀ offset ∈ offset?, offset < items.length) →
    ∃ previous,
      respond settings today (listing settings path (joined criteria fields)) s
        = (.ok (pageAnswer (.int items.length)
            (if offset?.getD 0 + limit < items.length then
              .text (Wide.ofText ("?" ++ pageFields ⟨limit, (offset?.getD 0 + limit : Nat)⟩))
            else .null)
            previous ((items.drop (offset?.getD 0)).take limit)), s)

theorem answersPages_of_lists
    (limit : Nat)
    (asks : AsksForListing settings path criteria op)
    (lists : op.Lists today s items)
    (few : Number.InRange items.length)
    (positive : 1 ≤ limit) (bounded : (limit : Int) ≤ settings.pagination.maxLimit)
    (range : Number.InRange limit) :
    AnswersPages settings today s path criteria limit items := by
  intro fields offset? page aligned inside
  have hlimit : (settings.pageRequest (some (limit : Int)) (offset?.map Int.ofNat)).effectiveLimit
      = limit := PageRequest.effectiveLimit_natural _ _ positive
  have hoffset : (settings.pageRequest (some (limit : Int)) (offset?.map Int.ofNat)
      ).effectiveOffset = (offset?.getD 0 : Nat) := PageRequest.effectiveOffset_natural _ _ _
  have hnear : ∀ offset ∈ offset?, Number.InRange (offset : Int) := fun offset h =>
    ⟨by omega, (Int.ofNat_lt.2 (inside offset h)).trans few.2⟩
  obtain ⟨previous, hpage⟩ := exists_pageAnswer hlimit hoffset items
  refine ⟨previous, ?_⟩
  rw [asks.page today s page bounded range hnear,
    lists.page _ (.of_natural hlimit hoffset positive range aligned) few, hpage]

/-- Walking on from a page leads through the items from that page on. -/
theorem walks_from
    {fields : String} {offset? : Option Nat}
    (answers : AnswersPages settings today s path criteria limit items)
    (positive : 1 ≤ limit)
    (page : AsksForPage limit fields offset?)
    (aligned : limit ∣ offset?.getD 0)
    (inside : ∀ offset ∈ offset?, offset < items.length) :
    Walks settings today s path criteria (joined criteria fields)
      (items.drop (offset?.getD 0)) := by
  -- every page leaves fewer items to go
  induction hrest : items.length - offset?.getD 0 using Nat.strongRecOn
    generalizing fields offset? with
  | ind rest ih =>
      obtain ⟨previous, hrespond⟩ := answers fields offset? page aligned inside
      by_cases hnext : offset?.getD 0 + limit < items.length
      · rw [if_pos hnext] at hrespond
        have hfurther := ih (items.length - (offset?.getD 0 + limit)) (by omega)
          (.link (offset?.getD 0 + limit)) ((Nat.dvd_add_right aligned).2 dvd_rfl)
          (fun offset h => by cases h; exact hnext) rfl
        have hitems : (items.drop (offset?.getD 0)).take limit
            ++ items.drop (offset?.getD 0 + limit) = items.drop (offset?.getD 0) := by
          rw [← List.drop_drop, List.take_append_drop]
        rw [← hitems]
        exact .next hrespond hfurther
      · rw [if_neg hnext, List.take_of_length_le (by rw [List.length_drop]; omega)] at hrespond
        exact .last hrespond

/-- Whether the pages of a listing, one after the other, are what is answered without pages: at
every limit, as long as there are no more rows than the stored range has places. -/
def IsWalked
    (settings : Settings) (today : Date) (s : Store) (path : Wide) (criteria : String) : Prop :=
  ∃ items,
    respond settings today (listing settings path criteria) s = (.ok (.list items), s) ∧
      (Number.InRange items.length → ∀ limit : Nat, 1 ≤ limit →
        (limit : Int) ≤ settings.pagination.maxLimit → Number.InRange limit →
          Walks settings today s path criteria (joined criteria (limitField limit)) items)

theorem isWalked_of_lists
    (asks : AsksForListing settings path criteria op)
    (lists : op.Lists today s items) :
    IsWalked settings today s path criteria := by
  refine ⟨items, (asks.all today s).trans lists.all, fun few limit positive bounded range => ?_⟩
  have answers := answersPages_of_lists limit asks lists few positive bounded range
  exact walks_from answers positive .first (Nat.dvd_zero limit) nofun

/-- In every reachable store, the reference rows of a kind that a filter accepts, and the records
that it accepts if all of them can be presented, are walked through page by page, with the criteria
of the filter in front of every fragment. -/
theorem listings_walked
    (settings : Settings) (history : List (Date × Operation)) (today : Date) :
    (∀ k f criteria,
      (listing settings (lookupsPath k) criteria).Asks settings (.listLookups k f) →
      f.IsSearchable →
        IsWalked settings today (Store.seeded.after history) (lookupsPath k) criteria) ∧
    ∀ f criteria,
      (listing settings recordsPath criteria).Asks settings (.listRecords f) →
      f.IsSearchable → (Store.seeded.after history).Presents f →
        IsWalked settings today (Store.seeded.after history) recordsPath criteria := by
  constructor
  · intro k f criteria asks searchable
    exact isWalked_of_lists (asksForListing_lookups asks)
      (Store.lists_lookups _ today k searchable)
  · intro f criteria asks searchable presented
    obtain ⟨items, lists⟩ := (Store.sound_after history).exists_listed today searchable presented
    exact isWalked_of_lists (asksForListing_records asks) lists

end Walks

section Genres

/-- Three genres are enrolled, of which two have the letter a. -/
def genreHistory : List (Date × Operation) :=
  ["b", "a", "ab"].map fun name =>
    (.epoch, .enrol (.attached .genre) { name := Wide.ofText name })

/-- The store that has them. -/
def genreStore : Store :=
  Store.seeded.after genreHistory

/-- The path of the genres. -/
def genresPath : Wide :=
  lookupsPath (.attached .genre)

theorem asks_genres_with_a :
    (listing {} genresPath "name=a").Asks {}
      (.listLookups (.attached .genre) { name? := some "a" }) := by
  have hfields : queryFields "name=a" = [("name", "a")] :=
    queryFields_of_plain (by decide) (by decide) (by decide)
  refine ⟨.listLookups, [("kind", "genre")], 200, "Record", rfl, ?_⟩
  unfold plan queryLookupFilter queryPage queryValue listing
  dsimp only
  rw [hfields]
  rfl

theorem lists_genres_with_a :
    (Operation.listLookups (.attached .genre) { name? := some "a" }).Lists .epoch genreStore
      ([⟨2, ⟨"a", "", false⟩⟩, ⟨3, ⟨"ab", "", false⟩⟩].map Lookup.toJson) := by
  have hrows : (genreStore.lookupRows (.attached .genre)).filter
      (LookupFilter.accepts { name? := some "a" })
        = [⟨2, ⟨"a", "", false⟩⟩, ⟨3, ⟨"ab", "", false⟩⟩] := by decide
  rw [← hrows]
  exact genreStore.lists_lookups .epoch (.attached .genre) isSearchable_a

theorem lists_genres :
    (Operation.listLookups (.attached .genre) {}).Lists .epoch genreStore
      ([⟨1, ⟨"b", "", false⟩⟩, ⟨2, ⟨"a", "", false⟩⟩, ⟨3, ⟨"ab", "", false⟩⟩].map
        Lookup.toJson) := by
  have hrows : (genreStore.lookupRows (.attached .genre)).filter (LookupFilter.accepts {})
      = [⟨1, ⟨"b", "", false⟩⟩, ⟨2, ⟨"a", "", false⟩⟩, ⟨3, ⟨"ab", "", false⟩⟩] := by decide
  rw [← hrows]
  exact genreStore.lists_lookups .epoch (.attached .genre) ⟨nofun, nofun, nofun⟩

/-- With the criteria in front of every fragment, the genres with the letter a are walked through
one by one; and of records, there are none to be walked through. -/
theorem genres_walked :
    (listing {} genresPath "name=a").Asks {}
        (.listLookups (.attached .genre) { name? := some "a" }) ∧
      LookupFilter.IsSearchable { name? := some "a" } ∧
      Walks {} .epoch genreStore genresPath "name=a" (joined "name=a" (limitField 1))
        ([⟨2, ⟨"a", "", false⟩⟩, ⟨3, ⟨"ab", "", false⟩⟩].map Lookup.toJson) ∧
      (listing {} recordsPath "").Asks {} (.listRecords {}) ∧
      RecordFilter.IsSearchable {} ∧ genreStore.Presents {} ∧
      IsWalked {} .epoch genreStore recordsPath "" := by
  obtain ⟨hlookups, hlisted⟩ := listings_walked {} genreHistory .epoch
  obtain ⟨items, hall, hwalk⟩ := hlookups (.attached .genre) _ _ asks_genres_with_a isSearchable_a
  have hitems := (asksForListing_lookups asks_genres_with_a).all .epoch genreStore
  rw [lists_genres_with_a.all] at hitems
  cases hall.symm.trans hitems
  have hasks : (listing {} recordsPath "").Asks {} (.listRecords {}) :=
    ⟨.listRecords, [], 200, "Record", rfl, rfl⟩
  have hsearchable : RecordFilter.IsSearchable {} := by
    refine ⟨nofun, nofun, fun d n hn => ?_⟩
    cases d <;> cases hn
  have hrecords : genreStore.records.rows = [] := by decide
  have hpresents : genreStore.Presents {} := fun e he => by
    rw [hrecords] at he
    cases he
  exact ⟨asks_genres_with_a, isSearchable_a,
    hwalk (by decide) 1 (by decide) (by decide) (by decide),
    hasks, hsearchable, hpresents, hlisted {} "" hasks hsearchable hpresents⟩

/-- Whether the request for a listing is a failure of the server. -/
def Fails (settings : Settings) (s : Store) (path : Wide) (query : String) : Prop :=
  (respond settings .epoch (listing settings path query) s).1 = .failure

theorem fails_of_plan
    {settings : Settings} {s : Store} {path : Wide} {query : String} {e : Endpoint}
    {ps : Parameters} {p : Plan}
    (found : find (routes settings.api.basePath) "GET" (settings.api.basePath ++ path)
      = .endpoint e ps)
    (planned : plan settings e ps (listing settings path query) = .valid p)
    (failing : (p.run .epoch s).1 = .failure) :
    Fails settings s path query := by
  have hrespond : respond settings .epoch (listing settings path query) s = p.run .epoch s :=
    respond_of_plan .epoch s found ⟨nofun, nofun⟩ planned
  rw [Fails, hrespond, failing]

theorem fails_of_far_id : Fails {} genreStore genresPath "id=9223372036854775808" := by
  have hfields : queryFields "id=9223372036854775808" = [("id", "9223372036854775808")] :=
    queryFields_of_plain (by decide) (by decide) (by decide)
  have hplan : plan {} .listLookups [("kind", "genre")]
      (listing {} genresPath "id=9223372036854775808") = .valid (.operation
        (.listLookups (.attached .genre) { id? := some 9223372036854775808 })) := by
    unfold plan queryLookupFilter queryPage queryValue listing
    dsimp only
    rw [hfields]
    rfl
  exact fails_of_plan rfl hplan rfl

/-- A limit beyond the stored range fails, where the settings let it pass. -/
theorem exists_fails_of_far_limit :
    ∃ settings : Settings, 9223372036854775808 ≤ settings.pagination.maxLimit.val ∧
      Fails settings genreStore genresPath "limit=9223372036854775808" := by
  have hfields : queryFields "limit=9223372036854775808" = [("limit", "9223372036854775808")] :=
    queryFields_of_plain (by decide) (by decide) (by decide)
  let settings : Settings := { pagination := { maxLimit := ⟨9223372036854775808, by decide⟩ } }
  have hplan : plan settings .listLookups [("kind", "genre")]
      (listing settings genresPath "limit=9223372036854775808")
        = .valid (.operation (.pageLookups (.attached .genre) {}
          { limit? := some 9223372036854775808 })) := by
    unfold plan queryLookupFilter queryPage queryValue listing
    dsimp only
    rw [hfields]
    rfl
  exact ⟨settings, by decide, fails_of_plan rfl hplan rfl⟩

/-- A title with too long a pattern fails, if there are any records. -/
theorem fails_of_long_title
    {s : Store} {title : String}
    (plain : title.toList.all isPlain = true)
    (shown : (Wide.ofText title).isBlank = false)
    (own_pattern : Text.partPattern title = Wide.ofText title)
    (long : longestPattern < title.utf8ByteSize + 2)
    (some_record : s.records.rows ≠ []) :
    Fails {} s recordsPath ("title=" ++ title) := by
  have hname : "title=" = "title" ++ "=" := by decide
  have hfields : queryFields ("title=" ++ title) = [("title", title)] :=
    queryFields_of_plain (by rw [hname]) (by decide) plain
  have hplan : plan {} .listRecords [] (listing {} recordsPath ("title=" ++ title))
      = .valid (.operation (.listRecords { title? := some (Wide.ofText title) })) := by
    unfold plan queryRecordFilter queryPage queryValue listing
    dsimp only
    rw [hfields]
    rfl
  have hrun : Operation.run .epoch (.listRecords { title? := some (Wide.ofText title) }) s
      = .error .longPattern :=
    congrArg (Except.map _) (s.listRecords_eq_error_of_long shown own_pattern long some_record)
  refine fails_of_plan rfl hplan ?_
  rw [run_plan_of_error hrun]
  rfl

/-- A store with one record, whose link has an infinite size. -/
def boundlessStore : Store :=
  Store.seeded.after
    [(.epoch, .submit "x" {}),
      (.epoch, .addLinks "x" [{ name := "a", size? := some (.finite false 1 400) }])]

/-- With bare fragments, a walk through the genres with the letter a leaves them behind its first
page, and comes back to where it began.  An id or a limit beyond the stored range, a pattern that is
too long and a record that cannot be presented fail at once. -/
theorem walk_leaves_listing :
    (∃ items,
      respond {} .epoch (listing {} genresPath "name=a") genreStore
        = (.ok (.list items), genreStore) ∧
      ¬ Walks {} .epoch genreStore genresPath "" (joined "name=a" (limitField 1)) items) ∧
      Fails {} genreStore genresPath "id=9223372036854775808" ∧
      (∃ settings : Settings, 9223372036854775808 ≤ settings.pagination.maxLimit.val ∧
        Fails settings genreStore genresPath "limit=9223372036854775808") ∧
      Fails {} boundlessStore recordsPath
        ("title=" ++ String.ofList (List.replicate 50000 'a')) ∧
      Fails {} boundlessStore recordsPath "" := by
  have hlong : longestPattern < (String.ofList (List.replicate 50000 'a')).utf8ByteSize + 2 := by
    rw [utf8ByteSize_replicate]
    decide
  have hplain : (String.ofList (List.replicate 50000 'a')).toList.all isPlain = true := by
    rw [String.toList_ofList, List.all_replicate]
    decide
  refine ⟨?_, fails_of_far_id, exists_fails_of_far_limit,
    fails_of_long_title hplain (isBlank_replicate _) (partPattern_replicate _) hlong (by decide),
    rfl⟩
  have asks_all : (listing {} genresPath "").Asks {} (.listLookups (.attached .genre) {}) :=
    ⟨.listLookups, [("kind", "genre")], 200, "Record", rfl, rfl⟩
  have hfirst := answersPages_of_lists 1 (asksForListing_lookups asks_genres_with_a)
    lists_genres_with_a (by decide) (by decide) (by decide) (by decide)
  have hothers := answersPages_of_lists 1 (asksForListing_lookups asks_all)
    lists_genres (by decide) (by decide) (by decide) (by decide)
  obtain ⟨previous, hpage⟩ := hfirst (limitField 1) none .first (Nat.dvd_zero 1) nofun
  have hstray := walks_from hothers (by decide) (.link 1) (by decide)
    (fun offset h => by cases h; decide)
  refine ⟨_, ((asksForListing_lookups asks_genres_with_a).all _ _).trans lists_genres_with_a.all,
    fun h => ?_⟩
  -- one genre on the first page, and two behind it
  cases congrArg List.length (h.eq (.next hpage hstray))

end Genres

end Http
end CardCatalog
