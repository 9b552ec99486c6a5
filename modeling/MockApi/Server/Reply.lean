import MockApi.Json.Writer
import MockApi.Route.Dispatch
import MockApi.Text.Latin

/-!
# Replies of a server

A reply carries a status, headers and a body. The body is standard JSON, except that some statuses
go without one. Headers are in Latin-1 with names in lower case, and the body is sent in UTF-8, so a
reply with other text cannot be made.
-/

namespace MockApi

/-- A reply, without the length of its body, which whoever sends it adds. -/
structure Reply where
  /-- The status code. -/
  status : Nat
  /-- The headers in order, with names in lower case. -/
  headers : List (Text × Text)
  /-- The body. -/
  body : Text
deriving DecidableEq, Repr

/-- Why a request gets no reply. -/
inductive ServiceFailure
  /-- Dispatching the request failed. -/
  | dispatch (failure : DispatchFailure)
  /-- The content of the reply or of the request is beyond a limit. -/
  | failed (failure : Failure)
  /-- The reply holds text that cannot be sent. -/
  | notEncodable

namespace Reply

/-- The name of the header that tells the type of the body. -/
def contentType : Text := "content-type"

/-- The type of JSON bodies. -/
def jsonType : Text := "application/json"

/-- A header as it is sent. -/
def encodeHeader (header : Text × Text) : Except ServiceFailure (Text × Text) :=
  match Text.toLatinLower? header.1, Text.toLatin? header.2 with
  | some name, some value => .ok (name, value)
  | _, _ => .error .notEncodable

/-- A reply without a body. -/
def bare (status : Nat) (headers : Table Text) : Except ServiceFailure Reply := do
  return ⟨status, ← headers.mapM encodeHeader, []⟩

variable [Stack]

/-- A reply with JSON for its body. -/
def json (status : Nat) (headers : Table Text) (content : Value) :
    Except ServiceFailure Reply := do
  let body ← (Json.write .standard content).mapError .failed
  if (Text.Utf8.encode? body).isNone then throw .notEncodable
  let headers ← headers.mapM encodeHeader
  let typed := headers.any fun (name, _) ↦ name = contentType
  return ⟨status, if typed then headers else headers ++ [(contentType, jsonType)], body⟩

/-- The statuses of replies that have no body. -/
def bareStatuses : List Nat := [204, 304]

/-- The header that names the endpoint behind a reply. -/
def endpointHeader : Text := "X-Mockingbird-Endpoint"

/-- The header that names the scenario behind a reply. -/
def scenarioHeader : Text := "X-Mockingbird-Scenario"

/-- The headers of the reply of an endpoint. -/
def servedHeaders (answer : Served) : Table Text :=
  let headers := answer.endpoint.headers.insert endpointHeader answer.endpoint.identity
  match answer.selection.scenario? with
  | none | some [] => headers
  | some name => headers.insert scenarioHeader name

/-- The reply for a result of dispatching. -/
def ofResult : DispatchResult → Except ServiceFailure Reply
  | .notFound method url available =>
    json 404 [] (.ofEntries [
      ("error", .text (DispatchError.notFound method url available).message),
      ("availableEndpoints", .ofItems (available.map .text))])
  | .served answer =>
    let status := answer.selection.response.status
    match answer.body with
    | .ok body =>
      if bareStatuses.contains status then bare status (servedHeaders answer)
      else json status (servedHeaders answer) body
    | .error error =>
      json 500 [(endpointHeader, answer.endpoint.identity)] (.ofEntries
        (("error", .text ("Internal Mock Error: " ++ error.message)) :: error.details))

theorem status_of_json {status : Nat} {headers : Table Text} {content : Value} {reply : Reply}
    (h : json status headers content = .ok reply) : reply.status = status := by
  unfold json at h
  cases hb : (Json.write .standard content).mapError ServiceFailure.failed with
  | error e =>
    rw [hb] at h
    cases h
  | ok body =>
    rw [hb] at h
    by_cases he : (Text.Utf8.encode? body).isNone = true
    · simp [bind, Except.bind, he, throw, throwThe, MonadExceptOf.throw] at h
    · cases hm : headers.mapM encodeHeader with
      | error e => simp [bind, Except.bind, he, hm] at h
      | ok hs =>
        simp [bind, Except.bind, he, hm, pure, Except.pure] at h
        rw [← h]

end Reply

end MockApi
