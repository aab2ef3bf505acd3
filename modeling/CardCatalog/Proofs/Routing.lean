import CardCatalog.Http.Route
import CardCatalog.Kind
import Mathlib.Data.List.Basic
import Mathlib.Data.List.TakeWhile

/-!
# Routing

The routes of the catalog lie below a base path, which stands in front of every pattern.  A path
below the base path leads where its rest would lead without one; the only other route, that of the
health check, is too short to match it.

Results: where a path leads is found without the base path (`find_below`), and the paths of single
records lead to them (`find_record`).
-/

namespace CardCatalog
namespace Http

open Text (Code Wide)

/-- The first route of a method that matches a path. -/
def firstMatch? (routes : List Route) (method : String) (path : Wide) : Option Target :=
  routes.findSome? fun r =>
    if r.method = method then (r.match? path).map (Target.endpoint r.endpoint) else none

/-- A route below a base path, which stands in front of the literal that its pattern begins
with. -/
def Route.below (base : String) (r : Route) : Route :=
  match r.pattern with
  | .literal text :: ps => { r with pattern := .literal (base ++ text) :: ps }
  | _ => r

section Matching

theorem codes_append (v w : Wide) : (v ++ w).codes = v.codes ++ w.codes := rfl

theorem ofText_append (s t : String) : Wide.ofText (s ++ t) = Wide.ofText s ++ Wide.ofText t := by
  show Wide.mk ((s ++ t).toList.map Code.char) = Wide.mk (s.toList.map _ ++ t.toList.map _)
  rw [String.toList_append, List.map_append]

theorem dropLiteral?_eq_some_iff
    {ls cs rest : List Code} :
    dropLiteral? ls cs = some rest ↔ cs = ls ++ rest := by
  induction ls generalizing cs with
  | nil => simp [dropLiteral?]
  | cons l ls ih =>
      cases cs with
      | nil => simp [dropLiteral?]
      | cons c cs =>
          unfold dropLiteral?
          split
          · rename_i hlc
            rw [ih, List.cons_append, hlc]
            simp
          · rename_i hlc
            simp [Ne.symm hlc]

theorem dropLiteral?_append_append (ls ms cs : List Code) :
    dropLiteral? (ls ++ ms) (ls ++ cs) = dropLiteral? ms cs := by
  induction ls with
  | nil => rfl
  | cons l ls ih => simpa [dropLiteral?] using ih

theorem matchPath?_literal (text : String) (ps : List Piece) (cs : List Code) :
    matchPath? (.literal text :: ps) cs
      = (dropLiteral? (Wide.ofText text).codes cs).bind (matchPath? ps) := by
  rw [matchPath?]

theorem matchPath?_literal_append (text : String) (ps : List Piece) (cs : List Code) :
    matchPath? (.literal text :: ps) ((Wide.ofText text).codes ++ cs) = matchPath? ps cs := by
  rw [matchPath?_literal, dropLiteral?_eq_some_iff.2 rfl, Option.bind_some]

/-- A parameter at the end takes what is left of a path, if that is something without a slash. -/
theorem matchPath?_parameter
    (name : String) {cs : List Code}
    (some_code : cs ≠ [])
    (flat : Code.char '/' ∉ cs) :
    matchPath? [.parameter name] cs = some [(name, ⟨cs⟩)] := by
  have hall : cs.takeWhile (· ≠ Code.char '/') = cs :=
    List.takeWhile_eq_self_iff.2 fun c hc => decide_eq_true fun e => flat (e ▸ hc)
  obtain ⟨n, hn⟩ : ∃ n, cs.length = n + 1 := Nat.exists_eq_succ_of_ne_zero (by simpa using some_code)
  unfold matchPath?
  dsimp only
  rw [hall, hn, List.range_succ, List.reverse_append, List.reverse_singleton,
    List.singleton_append, List.findSome?_cons, ← hn, List.drop_length, List.take_length]
  rfl

/-- The literals of a pattern stand in the paths that it matches. -/
theorem mem_of_mem_literal
    (text : String) {ps : List Piece} {cs : List Code} {found : Parameters}
    (h : matchPath? ps cs = some found) (hp : Piece.literal text ∈ ps) :
    ∀ c ∈ (Wide.ofText text).codes, c ∈ cs := by
  induction ps generalizing cs found with
  | nil => cases hp
  | cons p ps ih =>
      cases p with
      | literal text' =>
          unfold matchPath? at h
          obtain ⟨rest, hrest, h⟩ := Option.bind_eq_some_iff.1 h
          rw [dropLiteral?_eq_some_iff.1 hrest]
          intro c hc
          rcases List.mem_cons.1 hp with hp | hp
          · cases hp
            exact List.mem_append_left rest hc
          · exact List.mem_append_right _ (ih h hp c hc)
      | parameter name =>
          unfold matchPath? at h
          obtain ⟨n, _, h⟩ := List.exists_of_findSome?_eq_some h
          obtain ⟨found', hfound, _⟩ := Option.map_eq_some_iff.1 h
          rcases List.mem_cons.1 hp with hp | hp
          · cases hp
          · exact fun c hc => List.mem_of_mem_drop (ih hfound hp c hc)

end Matching

section Finding

theorem find_of_firstMatch?
    {routes : List Route} {method : String} {path : Wide} {target : Target}
    (h : firstMatch? routes method path = some target) :
    find routes method path = target := by
  unfold firstMatch? at h
  unfold find
  dsimp only
  rw [h]

/-- The route of the health check matches no path with two slashes. -/
theorem healthRoute_match?
    {path : Wide}
    (deep : 2 ≤ path.codes.count (.char '/')) :
    healthRoute.match? path = none := by
  refine Option.eq_none_iff_forall_ne_some.2 fun found h => ?_
  obtain ⟨rest, hrest, h⟩ := Option.bind_eq_some_iff.1 h
  have hpath := dropLiteral?_eq_some_iff.1 hrest
  have hone : path.codes.count (.char '/') = 1 := by
    unfold matchPath? at h
    split at h
    · rename_i hend
      rw [hpath]
      rcases hend with rfl | rfl <;> decide
    · cases h
  omega

@[simp] theorem method_below (base : String) (r : Route) : (r.below base).method = r.method := by
  unfold Route.below
  split <;> rfl

@[simp] theorem endpoint_below (base : String) (r : Route) :
    (r.below base).endpoint = r.endpoint := by
  unfold Route.below
  split <;> rfl

theorem cardRoutes_eq (base : String) :
    cardRoutes base = (cardRoutes "").map (Route.below base) := by
  simp [cardRoutes, Route.below, String.append_assoc]

/-- Below a base path, a route matches what it matches without it. -/
theorem match?_below
    (base : String) {r : Route} (path : Wide)
    (h : r ∈ cardRoutes "") :
    (r.below base).match? (Wide.ofText base ++ path) = r.match? path := by
  have hliteral : ∃ text ps, r.pattern = .literal text :: ps := by
    simp only [cardRoutes, List.mem_cons, List.not_mem_nil, or_false] at h
    rcases h with rfl | rfl | rfl | rfl | rfl | rfl | rfl | rfl | rfl | rfl | rfl | rfl | rfl | rfl
    all_goals exact ⟨_, _, rfl⟩
  obtain ⟨text, ps, hpattern⟩ := hliteral
  unfold Route.below Route.match?
  rw [hpattern]
  show matchPath? (.literal (base ++ text) :: ps) _ = matchPath? (.literal text :: ps) path.codes
  rw [matchPath?_literal, matchPath?_literal, ofText_append, codes_append, codes_append,
    dropLiteral?_append_append]

/-- A path below a base path leads where its rest would lead without one. -/
theorem find_below
    (base : String) {method : String} {path : Wide} {target : Target}
    (deep : 2 ≤ path.codes.count (.char '/'))
    (h : firstMatch? (cardRoutes "") method path = some target) :
    find (routes base) method (Wide.ofText base ++ path) = target := by
  have hdeep : 2 ≤ (Wide.ofText base ++ path).codes.count (.char '/') := by
    rw [codes_append, List.count_append]
    omega
  have hroutes : routes (Wide.ofText base)
      = healthRoute :: (cardRoutes "").map (Route.below base) := by
    rw [← cardRoutes_eq]
    simp [routes]
  refine find_of_firstMatch? ?_
  unfold firstMatch? at h ⊢
  rw [hroutes, List.findSome?_cons, healthRoute_match? hdeep, List.findSome?_map, ← h]
  simp only [Option.map_none, ite_self]
  rw [← List.head?_filterMap, ← List.head?_filterMap]
  refine congrArg List.head? (List.filterMap_congr fun r hr => ?_)
  rw [Function.comp_apply, method_below, endpoint_below, match?_below base path hr]

/-- Only the health check is reached if the base path is no text. -/
theorem basePath_of_find_endpoint
    {basePath : Wide} {method : String} {path : Wide} {e : Endpoint} {ps : Parameters}
    (h : find (routes basePath) method path = .endpoint e ps)
    (card : e ≠ .health) :
    ∃ base, basePath = Wide.ofText base := by
  cases hbase : basePath.text? with
  | some base => exact ⟨base, Wide.text?_eq_some_iff.1 hbase⟩
  | none =>
      unfold find routes at h
      rw [hbase] at h
      dsimp only [Option.map_none, Option.getD_none] at h
      split at h
      · rename_i target htarget
        obtain ⟨r, hr, hfound⟩ := List.exists_of_findSome?_eq_some htarget
        cases List.mem_singleton.1 hr
        split at hfound
        · obtain ⟨_, _, hfound⟩ := Option.map_eq_some_iff.1 hfound
          rw [← hfound] at h
          cases h
          exact absurd rfl card
        · cases hfound
      · split at h
        · cases h
        split at h
        · cases h
        · cases h

theorem find_creation (base : String) :
    find (routes base) "POST" (Wide.ofText base ++ Wide.ofText "/cards/records")
      = .endpoint .createRecord [] :=
  find_below base (by decide) (by decide)

theorem find_records (base : String) :
    find (routes base) "GET" (Wide.ofText base ++ Wide.ofText "/cards/records")
      = .endpoint .listRecords [] :=
  find_below base (by decide) (by decide)

theorem find_lookups (base : String) (k : Kind) :
    find (routes base) "GET" (Wide.ofText base ++ (Wide.ofText "/cards/" ++ Wide.ofText k.name))
      = .endpoint .listLookups [("kind", Wide.ofText k.name)] := by
  revert k
  exact fun k => find_below base (by revert k; decide) (by revert k; decide)

section Records

variable {id : String}

/-- The path of a record is that of all records up to a slash and its id. -/
theorem matchPath?_record (ps : List Piece) (id : String) :
    matchPath? (.literal "/cards/records" :: ps)
        (Wide.ofText "/cards/records/" ++ Wide.ofText id).codes
      = matchPath? ps (.char '/' :: (Wide.ofText id).codes) :=
  matchPath?_literal_append "/cards/records" ps (.char '/' :: (Wide.ofText id).codes)

/-- Only two ids are read as the list of ids. -/
theorem matchPath?_ids
    (other : id ≠ "ids" ∧ id ≠ "ids\n") :
    matchPath? [.literal "/ids"] (.char '/' :: (Wide.ofText id).codes) = none := by
  refine Option.eq_none_iff_forall_ne_some.2 fun found h => ?_
  rw [matchPath?_literal] at h
  obtain ⟨rest, hrest, h⟩ := Option.bind_eq_some_iff.1 h
  have hid : (Wide.ofText id).codes = (Wide.ofText "ids").codes ++ rest :=
    List.tail_eq_of_cons_eq (dropLiteral?_eq_some_iff.1 hrest)
  unfold matchPath? at h
  split at h
  · rename_i hend
    rcases hend with rfl | rfl
    · exact other.1 (Wide.ofText_inj.1 (congrArg Wide.mk hid))
    · exact other.2 (Wide.ofText_inj.1 (congrArg Wide.mk hid))
  · cases h

/-- The records by a row are asked for with one more slash. -/
theorem matchPath?_by
    (flat : Code.char '/' ∉ (Wide.ofText id).codes) :
    matchPath? [.literal "/by-", .parameter "kind", .literal "/", .parameter "lookup_id"]
      (.char '/' :: (Wide.ofText id).codes) = none := by
  refine Option.eq_none_iff_forall_ne_some.2 fun found h => flat ?_
  rw [matchPath?_literal] at h
  obtain ⟨rest, hrest, h⟩ := Option.bind_eq_some_iff.1 h
  have hid : (Wide.ofText id).codes = (Wide.ofText "by-").codes ++ rest :=
    List.tail_eq_of_cons_eq (dropLiteral?_eq_some_iff.1 hrest)
  have hslash : Code.char '/' ∈ rest :=
    mem_of_mem_literal "/" h (by simp) _ (by decide)
  rw [hid]
  exact List.mem_append_right _ hslash

/-- The path of a single record leads to it, if its id is not empty, has no slash, and is not read
as the list of ids; one line feed may stand behind the latter. -/
theorem find_record
    (base : String)
    (some_char : id ≠ "")
    (flat : '/' ∉ id.toList)
    (other : id ≠ "ids" ∧ id ≠ "ids\n") :
    find (routes base) "GET" (Wide.ofText base ++ (Wide.ofText "/cards/records/" ++ Wide.ofText id))
      = .endpoint .getRecord [("record_id", Wide.ofText id)] := by
  have hflat : Code.char '/' ∉ (Wide.ofText id).codes := by
    intro h
    obtain ⟨c, hc, he⟩ := List.mem_map.1 h
    cases he
    exact flat hc
  have hsome : (Wide.ofText id).codes ≠ [] := by
    intro h
    exact some_char (String.toList_eq_nil_iff.1 (List.map_eq_nil_iff.1 h))
  have hone : matchPath? [.literal "/", .parameter "record_id"]
      (.char '/' :: (Wide.ofText id).codes) = some [("record_id", Wide.ofText id)] :=
    (matchPath?_literal_append "/" _ (Wide.ofText id).codes).trans
      (matchPath?_parameter "record_id" hsome hflat)
  refine find_below base ?_ ?_
  · rw [codes_append, List.count_append]
    exact Nat.le_add_right_of_le (by decide)
  · show firstMatch?
      (⟨"GET", [.literal "/cards/records"], .listRecords⟩
        :: ⟨"GET", [.literal "/cards/records", .literal "/ids"], .recordIds⟩
        :: ⟨"GET", [.literal "/cards/records", .literal "/by-", .parameter "kind", .literal "/",
            .parameter "lookup_id"], .recordsBy⟩
        :: ⟨"POST", [.literal "/cards/records"], .createRecord⟩
        :: ⟨"GET", [.literal "/cards/records", .literal "/", .parameter "record_id"], .getRecord⟩
        :: _) "GET" _ = _
    unfold firstMatch? Route.match?
    simp only [List.findSome?_cons, matchPath?_record, matchPath?_ids other, matchPath?_by hflat,
      hone]
    simp [matchPath?]

end Records

end Finding

end Http
end CardCatalog
