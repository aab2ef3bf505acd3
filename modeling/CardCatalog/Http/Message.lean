import CardCatalog.Http.Query
import CardCatalog.Text.Encoding
import CardCatalog.Validation.Issue

/-!
# Requests and responses

A request is a method, a path, a query and a payload. The payload is JSON in any encoding
of Unicode, or something that is none; an empty one is absent.

A response to a request that is not valid has to be able to echo what was found there.

Headers are left out, and with them payloads that are not sent as JSON.
-/

namespace CardCatalog
namespace Http

open Validation (Issue)

/-- What a request brings along. -/
inductive Payload where
  | absent
  | value (j : Json)
  /-- A text that is no JSON. -/
  | malformed
  /-- Bytes that encode no text, or a text that is given up in the middle. -/
  | unreadable

/-- The payload of what was sent as the bytes of a text. -/
def Payload.ofText (s : String) : Payload :=
  if s = "" then .absent
  else
    match Text.received? s with
    | none => .unreadable
    | some w =>
      match Json.read w with
      | .ok j => .value j
      | .error .malformed => .malformed
      | .error _ => .unreadable

/-- A request; its payload, if it has one, is sent as JSON. -/
structure Request where
  method : String
  path : Text.Wide
  query : String := ""
  payload : Payload := .absent

/-- What a response says. -/
inductive Body where
  | empty
  | json (j : Json)
  | issues (issues : List Issue)
  | text (s : String)
  | location (address : String)

/-- A response. -/
structure Response where
  status : Nat
  body : Body

section Echo

/-- The start of the names of fields that are left out of an echo. -/
def hiddenStart : String := "_sa"

/-- How many lists and objects of an echo may lie in one another. It stands for what the
service has left of a stack of a thousand calls when it writes a response; reading a payload
leaves it a few more, so not everything that was read can be echoed. -/
def deepestEcho : Nat := 955

mutual

/-- Whether a value can be echoed in so many levels: apart from hidden fields, its lists and
objects lie no deeper in one another, its texts and names have no halves of surrogate pairs,
and its doubles are finite. -/
def isEchoableIn (levels : Nat) : Json → Bool
  | .double (.finite ..) => true
  | .double _ => false
  | .text w => w.text?.isSome
  | .list items => 0 < levels && areEchoableIn (levels - 1) items
  | .object fields => 0 < levels && areFieldsEchoableIn (levels - 1) fields
  | _ => true

/-- Whether all values of a list can be echoed. -/
def areEchoableIn (levels : Nat) : List Json → Bool
  | [] => true
  | j :: rest => isEchoableIn levels j && areEchoableIn levels rest

/-- Whether all fields of an object can be echoed. -/
def areFieldsEchoableIn (levels : Nat) : List (Text.Wide × Json) → Bool
  | [] => true
  | (name, j) :: rest =>
    (name.startsWith hiddenStart || name.text?.isSome && isEchoableIn levels j)
      && areFieldsEchoableIn levels rest

end

/-- Whether a value can be echoed. -/
def isEchoable (j : Json) : Bool :=
  isEchoableIn deepestEcho j

end Echo

namespace Response

/-- The response of something found or done. -/
def ok (j : Json) : Response := ⟨200, .json j⟩

/-- The response of something created. -/
def created (j : Json) : Response := ⟨201, .json j⟩

/-- The response of something removed. -/
def noContent : Response := ⟨204, .empty⟩

/-- A response with nothing but a detail. -/
def detail (status : Nat) (s : String) : Response :=
  ⟨status, .json (.object [("detail", .text s)])⟩

/-- The response of a failure that has no answer of its own. -/
def failure : Response := ⟨500, .text "Internal Server Error"⟩

/-- The response of a request that is not valid. An issue with a value that cannot be
echoed makes it a failure. -/
def invalid (issues : List Issue) : Response :=
  if issues.all fun i => isEchoable i.input then ⟨422, .issues issues⟩ else failure

end Response

end Http
end CardCatalog
