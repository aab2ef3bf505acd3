import CardCatalog.Json.Basic
import CardCatalog.Text.Blank

/-!
# Routes

A route is a method, a pattern and an endpoint. A path is wide text, and a pattern is a
sequence of literal pieces and parameters; a parameter stands for one or more characters
other than a slash, and takes as many as it can. One line feed may follow the pattern.

Of the routes whose pattern and method match, the first one counts. A path that only
differs from a matching one in its closing slashes is sent there.

The pages on which the service describes itself (`docs`, `openapi.json` and `redoc`) are left
out.
-/

namespace CardCatalog
namespace Http

open Text (Code Wide)

/-- What a route leads to. -/
inductive Endpoint where
  | health
  | listRecords
  | recordIds
  | recordsBy
  | createRecord
  | getRecord
  | updateRecord
  | addLinks
  | deleteRecord
  | recordCounts
  | listLookups
  | createLookup
  | getLookup
  | updateLookup
  | deleteLookup
  deriving DecidableEq, Repr

/-- A piece of a pattern. -/
inductive Piece where
  | literal (text : String)
  | parameter (name : String)
  deriving DecidableEq, Repr

/-- A method and a pattern that lead to an endpoint. -/
structure Route where
  method : String
  pattern : List Piece
  endpoint : Endpoint
  deriving DecidableEq, Repr

/-- The parameters of a path, by name. -/
abbrev Parameters := List (String × Wide)

section Matching

/-- The text behind a literal. -/
def dropLiteral? : List Code → List Code → Option (List Code)
  | [], cs => some cs
  | _ :: _, [] => none
  | l :: ls, c :: cs => if l = c then dropLiteral? ls cs else none

/-- The parameters of a path that a pattern matches. -/
def matchPath? : List Piece → List Code → Option Parameters
  | [], cs => if cs = [] ∨ cs = [.char '\n'] then some [] else none
  | .literal text :: ps, cs => (dropLiteral? (Wide.ofText text).codes cs).bind (matchPath? ps)
  | .parameter name :: ps, cs =>
    let most := (cs.takeWhile (· ≠ .char '/')).length
    (List.range most).reverse.findSome? fun n =>
      (matchPath? ps (cs.drop (n + 1))).map fun found =>
        (name, ⟨cs.take (n + 1)⟩) :: found

/-- The parameters of a path that a route matches. -/
def Route.match? (r : Route) (path : Wide) : Option Parameters :=
  matchPath? r.pattern path.codes

end Matching

/-- What is found for a method and a path. -/
inductive Target where
  | endpoint (endpoint : Endpoint) (parameters : Parameters)
  | wrongMethod
  | redirect (path : Wide)
  | nothing
  deriving DecidableEq, Repr

/-- The path with its closing slashes the other way: without them, or with one. -/
def otherSlashes (path : Wide) : Wide :=
  if path.codes.getLast? = some (.char '/') then
    ⟨Text.dropTail (· = .char '/') path.codes⟩
  else path ++ "/"

/-- Finds a method and a path among routes. -/
def find (routes : List Route) (method : String) (path : Wide) : Target :=
  let exact := routes.findSome? fun r =>
    if r.method = method then (r.match? path).map (Target.endpoint r.endpoint) else none
  match exact with
  | some target => target
  | none =>
    let matched (path : Wide) := routes.any fun r => (r.match? path).isSome
    if matched path then .wrongMethod
    else if path ≠ "/" ∧ matched (otherSlashes path) then .redirect (otherSlashes path)
    else .nothing

section Table

/-- The route of the health check. -/
def healthRoute : Route :=
  ⟨"GET", [.literal "/healthz"], .health⟩

/-- The routes of the catalog below a base path. -/
def cardRoutes (basePath : String) : List Route :=
  let cards := basePath ++ "/cards"
  let records (ps : List Piece) := .literal (cards ++ "/records") :: ps
  let lookups (ps : List Piece) := .literal (cards ++ "/") :: .parameter "kind" :: ps
  let oneRecord := [Piece.literal "/", .parameter "record_id"]
  let oneLookup := [Piece.literal "/", .parameter "lookup_id"]
  [⟨"GET", records [], .listRecords⟩,
   ⟨"GET", records [.literal "/ids"], .recordIds⟩,
   ⟨"GET",
    records [.literal "/by-", .parameter "kind", .literal "/", .parameter "lookup_id"],
    .recordsBy⟩,
   ⟨"POST", records [], .createRecord⟩,
   ⟨"GET", records oneRecord, .getRecord⟩,
   ⟨"PUT", records oneRecord, .updateRecord⟩,
   ⟨"PATCH", records (oneRecord ++ [.literal "/links"]), .addLinks⟩,
   ⟨"DELETE", records oneRecord, .deleteRecord⟩,
   ⟨"GET",
    [.literal (cards ++ "/stats/"), .parameter "kind", .literal "-records-count"],
    .recordCounts⟩,
   ⟨"GET", lookups [], .listLookups⟩,
   ⟨"POST", lookups [], .createLookup⟩,
   ⟨"GET", lookups oneLookup, .getLookup⟩,
   ⟨"PATCH", lookups oneLookup, .updateLookup⟩,
   ⟨"DELETE", lookups oneLookup, .deleteLookup⟩]

/-- The routes of the health check and of the catalog. Nothing lies below a base path that is no
text. -/
def routes (basePath : Wide) : List Route :=
  healthRoute :: (basePath.text?.map cardRoutes).getD []

end Table

end Http
end CardCatalog
