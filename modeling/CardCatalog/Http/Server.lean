import CardCatalog.Http.Message
import CardCatalog.Http.Route
import CardCatalog.Presentation
import CardCatalog.Session.Operations
import CardCatalog.Settings.Basic
import CardCatalog.Validation.Forms

/-!
# Answering requests

A request is routed, checked, run as one operation on the store, and answered. Whatever is
not found, not valid or not possible leaves the store as it was, and so does a record that
cannot be presented: one with an infinite size, or with a title that is too long.

The day is what the clock tells, and the clock is given to the service: how it comes by the day,
in the time zone of the settings, is left out.
-/

namespace CardCatalog
namespace Http

open Calendar (Date)
open Validation (Checked Issue IssueKind Rule)

section Checking

variable {α : Type}

/-- A parameter of the path. -/
def pathValue (parameters : Parameters) (name : String) (rule : Rule α) : Checked α :=
  rule [.field "path", .field name] (.text ((Json.get? parameters name).getD default))

/-- The kind that the path names. -/
def kindRule : Rule Kind := fun place j =>
  match j with
  | .text w =>
    match w.text?.bind Kind.ofName? with
    | some k => .valid k
    | none => .issue .enumeration place j
  | _ => .issue .enumeration place j

/-- The kind in the path. -/
def pathKind (parameters : Parameters) : Checked Kind :=
  pathValue parameters "kind" kindRule

/-- The id of a reference row in the path. -/
def pathLookup (parameters : Parameters) : Checked Int :=
  pathValue parameters "lookup_id" Rule.integer

/-- A field of the query. -/
def queryValue (r : Request) (name : String) (rule : Rule α) : Checked (Option α) :=
  match lastValue? (queryFields r.query) name with
  | none => .valid none
  | some s => some <$> rule [.field "query", .field name] (.text s)

/-- The payload of a request. -/
def payloadValue (r : Request) (rule : Rule α) : Checked α :=
  match r.payload with
  | .absent => .issue .missing [.field "body"] .null
  | .value j => rule [.field "body"] j
  | .malformed | .unreadable => .issue .jsonInvalid [.field "body"] .null

/-- The limit and the offset of the query, as far as they are given. -/
def queryPage (settings : Settings) (r : Request) :
    Checked (Option Int × Option Int) :=
  (fun limit? offset? => (limit?.map (·.val), offset?))
    <$> queryValue r "limit" (Rule.atMost settings.pagination.maxLimit)
    <*> queryValue r "offset" Rule.integer

/-- The filter of reference rows in the query. -/
def queryLookupFilter (r : Request) : Checked LookupFilter :=
  LookupFilter.mk <$> queryValue r "id" Rule.integer <*> queryValue r "name" Rule.wideText
    <*> queryValue r "link" Rule.wideText

/-- The filter of records in the query. -/
def queryRecordFilter (r : Request) : Checked RecordFilter :=
  let ref (k : DirectKind) := queryValue r (Kind.direct k).column Rule.integer
  RecordFilter.mk <$> queryValue r "id" Rule.wideText
    <*> queryValue r "title" Rule.wideText
    <*> (PerDirect.mk <$> ref .director <*> ref .studio <*> ref .label <*> ref .series)

end Checking

section Answering

/-- The response of an operation that stops. -/
def ofFault : Fault → Response
  | .brokenReference record kind missing =>
    let f : Fault := .brokenReference record kind missing
    ⟨500, .json (.object
      [("detail", .text f.message), ("record_id", .text record), ("kind", .text kind.name),
       ("missing_id", .int missing)])⟩
  | .protectedRow kind id => .detail 409 (Fault.protectedRow kind id).message
  | _ => .failure

/-- Whether a record can be presented. -/
def isPresentable (a : Aggregate) : Bool :=
  a.details.title.length ≤ Validation.longestTitle && a.links.all fun l => l.2.size.isFinite

/-- The response of a row that may be missing. -/
def ofFound (what : String) (status : Nat) : Option Json → Response
  | none => .detail 404 (what ++ " not found")
  | some j => ⟨status, .json j⟩

/-- A response with a record that may be missing. -/
def ofRecord (status : Nat) : Option Aggregate → Response
  | none => ofFound "Record" status none
  | some a => if isPresentable a then ofFound "Record" status a.toJson else .failure

/-- A response with several records. -/
def ofRecords (found : List Aggregate) (j : Json) : Response :=
  if found.all isPresentable then .ok j else .failure

/-- The response to what an operation reads back. -/
def ofAnswer (status : Nat) (what : String) : Answer → Response
  | .lookup row? => ofFound what status (row?.map Lookup.toJson)
  | .lookups rows => .ok (.list (rows.map Lookup.toJson))
  | .lookupPage page => .ok (page.toJson Lookup.toJson)
  | .lookupId id => ⟨status, .json (.object [("id", .int id)])⟩
  | .flag yes => if yes then .noContent else ofFound what status none
  | .counts rows => .ok (.list (rows.map RecordCount.toJson))
  | .record found? => ofRecord status found?
  | .records found => ofRecords found (.list (found.map Aggregate.toJson))
  | .recordPage page => ofRecords page.results (page.toJson Aggregate.toJson)
  | .recordId id => ⟨status, .json (.text id)⟩
  | .recordIds ids => .ok (.list (ids.map fun (id : String) => .text id))
  | .added count? =>
    ofFound what status (count?.map fun (n : Nat) => .object [("added", .int n)])

/-- What a valid request asks for: a fixed answer, or an operation with the status of its
success and the name of what it may not find. -/
inductive Plan where
  | answer (j : Json)
  | operation (op : Operation) (status : Nat := 200) (what : String := "Record")

/-- The plan of an operation on the record that the path names. -/
def Plan.onRecord (parameters : Parameters) (op : Text.Wide → Operation) : Plan :=
  .operation (op ((Json.get? parameters "record_id").getD default))

/-- Whether an endpoint takes a payload. -/
def Endpoint.takesPayload : Endpoint → Bool
  | .createRecord | .updateRecord | .addLinks | .createLookup | .updateLookup => true
  | _ => false

/-- What the health check answers. -/
def health (settings : Settings) : Json :=
  .object
    [("ok", .bool true), ("app", .text settings.appName), ("env", .text settings.appEnv)]

/-- The plan of a request to an endpoint. -/
def plan (settings : Settings) (e : Endpoint) (ps : Parameters) (r : Request) :
    Checked Plan :=
  let object := IssueKind.modelAttributesType
  match e with
  | .health => .valid (.answer (health settings))
  | .listRecords =>
    (fun f (page : Option Int × Option Int) =>
        match page with
        | (none, none) => .operation (.listRecords f)
        | (limit?, offset?) =>
          .operation (.pageRecords f (settings.pageRequest limit? offset?)))
      <$> queryRecordFilter r <*> queryPage settings r
  | .recordIds => .valid (.operation .recordIds)
  | .recordsBy =>
    (fun k id (page : Option Int × Option Int) =>
        .operation (.recordsBy k id (settings.pageRequest page.1 page.2)))
      <$> pathKind ps <*> pathLookup ps <*> queryPage settings r
  | .createRecord =>
    (fun sub => .operation (.submit sub.1 sub.2) 201)
      <$> payloadValue r (Rule.submission object)
  | .getRecord => .valid (.onRecord ps .loadRecord)
  | .updateRecord =>
    (fun sub => .onRecord ps fun id => .resubmit id sub)
      <$> payloadValue r (Rule.resubmission object)
  | .addLinks =>
    (fun links => .onRecord ps fun id => .addLinks id links)
      <$> payloadValue r (Rule.links object)
  | .deleteRecord => .valid (.onRecord ps .deleteRecord)
  | .recordCounts => (fun k => .operation (.recordCounts k)) <$> pathKind ps
  | .listLookups =>
    (fun k f (page : Option Int × Option Int) =>
        match page with
        | (none, none) => .operation (.listLookups k f)
        | (limit?, offset?) =>
          .operation (.pageLookups k f (settings.pageRequest limit? offset?)))
      <$> pathKind ps <*> queryLookupFilter r <*> queryPage settings r
  | .createLookup =>
    (fun k c => .operation (.enrol k c) 201)
      <$> pathKind ps <*> payloadValue r (Rule.candidate object)
  | .getLookup =>
    (fun k id => .operation (.findLookup k id) 200 k.displayName)
      <$> pathKind ps <*> pathLookup ps
  | .updateLookup =>
    (fun k id p => .operation (.amend k id p) 200 k.displayName)
      <$> pathKind ps <*> pathLookup ps <*> payloadValue r (Rule.patch object)
  | .deleteLookup =>
    (fun k id => .operation (.remove k id) 200 k.displayName)
      <$> pathKind ps <*> pathLookup ps

/-- Carries a plan out on a session; a response of failure stops the work. -/
def Plan.perform (p : Plan) (today : Date) : Work Response Response := do
  match p with
  | .answer j => return .ok j
  | .operation op status what =>
    let a ← (op.perform today).adapt ofFault
    let response := ofAnswer status what a
    if response.status < 400 then return response else throw response

/-- Carries a plan out as a unit of work on a session of its own, so that what it wrote is kept
unless the response is one of failure. -/
def Plan.run (p : Plan) (today : Date) (s : Store) : Response × Store :=
  match (Work.transactional (p.perform today)).alone s with
  | (.ok response, s') | (.error response, s') => (response, s')

/-- The response to a request to an endpoint. A payload that is not JSON is told before
anything else. -/
def serve (settings : Settings) (today : Date) (e : Endpoint) (ps : Parameters)
    (r : Request) (s : Store) : Response × Store :=
  match e.takesPayload, r.payload with
  | true, .malformed => (.invalid [⟨.jsonInvalid, [.field "body"], .null⟩], s)
  | true, .unreadable => (.detail 400 "There was an error parsing the body", s)
  | _, _ =>
    match plan settings e ps r with
    | .invalid first rest => (.invalid (first :: rest), s)
    | .valid p => p.run today s

/-- The response that sends a request to the path with the other slashes; a path that is
no text has no address. -/
def redirected (path : Text.Wide) (query : String) : Response :=
  match path.text? with
  | some path =>
    let address := "http://testserver" ++ path ++ if query = "" then "" else "?" ++ query
    ⟨307, .location (quotedAddress address)⟩
  | none => .failure

/-- The response to a request on the day that the clock tells, and the store afterwards. -/
def respond (settings : Settings) (today : Date) (r : Request) (s : Store) :
    Response × Store :=
  match find (routes settings.api.basePath) r.method r.path with
  | .endpoint e ps => serve settings today e ps r s
  | .wrongMethod => (.detail 405 "Method Not Allowed", s)
  | .redirect path => (redirected path r.query, s)
  | .nothing => (.detail 404 "Not Found", s)

end Answering

end Http
end CardCatalog
