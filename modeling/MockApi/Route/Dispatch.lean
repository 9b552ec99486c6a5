import MockApi.Endpoint.Selection
import MockApi.Json.Reader
import MockApi.Route.Registry
import MockApi.Template.Render
import MockApi.Url.Basic

/-!
# Dispatching requests

A request goes through the registry in a fixed order: its path is found, then the endpoint, then the
response that applies; the delay of the response is waited for, its template filled in and read as
JSON. A request that no endpoint answers and a response that is no JSON are results like any other;
what is left are failures of the request itself.

Waiting is part of the outcome: an outcome tells how long was slept, in seconds, before the result
or the failure.
-/

namespace MockApi

/-- A request to be dispatched. -/
structure DispatchRequest where
  /-- The method. -/
  method : Text
  /-- The URL. -/
  url : Text
  /-- Path parameters given explicitly. -/
  pathParameters : Value
  /-- Query parameters given explicitly. -/
  queryParameters : Value
  /-- The body. -/
  body : Value

/-- How requests are dispatched. -/
structure DispatchSettings where
  /-- The prefix that the paths of all requests share; empty for none. -/
  pathPrefix : Text
  /-- The mode in which templates are filled in. -/
  renderMode : RenderMode
deriving DecidableEq, Repr

/-- Why a result carries no body. -/
inductive DispatchError
  /-- No endpoint answers the method and the URL; the known identities are listed. -/
  | notFound (method url : Text) (available : List Text)
  /-- The filled-in template of a response with this status is no JSON. -/
  | notJson (status : Nat) (text reason : Text)
deriving DecidableEq, Repr

namespace DispatchError

/-- The name of the kind of an error. -/
def kind : DispatchError → Text
  | notFound .. => "not_found"
  | notJson .. => "render_error"

/-- The wording of an error. -/
def message : DispatchError → Text
  | notFound method url _ => "Endpoint not found for " ++ method ++ " " ++ url
  | notJson status _ reason =>
    let suffix : Text := if reason.isEmpty then [] else (" Error: " : Text) ++ reason
    "Failed to parse dynamic response template. Ensure the result is valid JSON. (Scenario Status: "
      ++ Text.ofNat status ++ ")" ++ suffix

/-- What an error adds to the report on a result. -/
def details : DispatchError → Entries
  | notFound _ _ available => [("availableEndpoints", .ofItems (available.map .text))]
  | notJson status text _ => [("scenarioStatus", .int status), ("responseText", .text text)]

/-- An error as entries of a report. -/
def entries (error : DispatchError) : Entries :=
  ("kind", .text error.kind) :: ("error", .text error.message) :: error.details

end DispatchError

/-- What was found for a request that an endpoint answers. -/
structure Served where
  /-- The endpoint. -/
  endpoint : Endpoint
  /-- The response chosen. -/
  selection : Selection
  /-- The data of the request. -/
  context : RequestContext
  /-- The body of the response, or why there is none. -/
  body : Except DispatchError Value

/-- The result of dispatching a request. -/
inductive DispatchResult
  /-- An endpoint answered. -/
  | served (answer : Served)
  /-- No endpoint answered; the known identities are listed. -/
  | notFound (method url : Text) (available : List Text)

/-- Why a request has no result. -/
inductive DispatchFailure
  /-- The URL has no path. -/
  | badUrl (fault : Url.Fault)
  /-- Parameters given explicitly are no object. -/
  | notAnObject (parameters : Value)
  /-- Something failed on the way. -/
  | failed (failure : Failure)

/-- Something that comes after waiting. -/
structure Waited (α : Type) where
  /-- The seconds that were slept, one number for each time. -/
  slept : List Double
  /-- What comes after that. -/
  value : α

namespace DispatchResult

/-- The error of a result. -/
def error? : DispatchResult → Option DispatchError
  | notFound method url available => some (.notFound method url available)
  | served answer => match answer.body with
    | .ok _ => none
    | .error error => some error

/-- The status code that a result stands for. -/
def status : DispatchResult → Nat
  | notFound .. => 404
  | served answer => answer.selection.response.status

variable [Stack]

/-- The report on a result that took so many milliseconds to come to. -/
def report (latency : Double) (result : DispatchResult) : Except Failure Value := do
  let (endpoint, scenario, delay) : Value × Value × Nat := match result with
    | served answer => (.text answer.endpoint.identity,
        (answer.selection.scenario?.map Value.text).getD .null, answer.selection.response.delay)
    | notFound .. => (.null, .null, 0)
  let head : Entries := [("kind", .text "ok"), ("statusCode", .int result.status),
    ("endpoint", endpoint), ("scenario", scenario), ("delay", .int delay),
    ("latencyMs", .double latency)]
  match result with
  | notFound method url available =>
    return .ofEntries (Table.insertAll head (DispatchError.notFound method url available).entries)
  | served answer =>
    let outcome : Entries := match answer.body with
      | .ok body => [("body", body)]
      | .error error => error.entries
    let request ← Value.jsonReady (.ofEntries [("pathParams", answer.context.path),
      ("queryParams", answer.context.query), ("bodyParams", answer.context.body)])
    return .ofEntries ((Table.insertAll head outcome).insert "request" request)

end DispatchResult

namespace DispatchRequest

/-- The entries of parameters given explicitly; vacant ones have none. -/
def explicitEntries : Value → Except DispatchFailure Entries
  | .object _ entries => .ok entries
  | value => if value.isVacant then .ok [] else .error (.notAnObject value)

/-- The data of a request: captured path parameters count more than explicit ones, and explicit
query parameters more than those of the URL. -/
def context (request : DispatchRequest) (captures : Table Text) :
    Except DispatchFailure RequestContext := do
  let path ← explicitEntries request.pathParameters
  let query ← explicitEntries request.queryParameters
  return ⟨.ofEntries (path.insertAll (captures.map fun (name, t) ↦ (name, .text t))),
    .ofEntries ((Url.queryParameters request.url).insertAll query), request.body⟩

end DispatchRequest

namespace Dispatch

/-- The seconds of a delay in milliseconds. -/
def seconds (delay : Nat) : Except Failure Double := do
  (← Number.divInt delay 1000).toDouble

variable [Stack]

/-- The body that a response has once its template is filled in. -/
def body (mode : RenderMode) (response : Response) (context : RequestContext) :
    Except Failure (Except DispatchError Value) := do
  let text ← Template.render mode response.template context
  match Json.read false text with
  | .ok value => return .ok value
  | .error (.failed .nestingTooDeep) => throw .nestingTooDeep
  | .error fault =>
    return .error (.notJson response.status text ((Json.faultMessage? text fault).getD []))

/-- Waits for the delay of a response and fills it in. -/
def respond (mode : RenderMode) (endpoint : Endpoint) (context : RequestContext)
    (selection : Selection) : Waited (Except DispatchFailure DispatchResult) :=
  let delay := selection.response.delay
  let finish : Except DispatchFailure DispatchResult := do
    let body ← (body mode selection.response context).mapError .failed
    return .served ⟨endpoint, selection, context, body⟩
  if delay = 0 then ⟨[], finish⟩
  else match seconds delay with
    | .ok s => ⟨[s], finish⟩
    | .error failure => ⟨[], .error (.failed failure)⟩

/-- What a request is answered with by the endpoint that was found. -/
def serve (mode : RenderMode) (request : DispatchRequest) (endpoint : Endpoint)
    (captures : Table Text) : Waited (Except DispatchFailure DispatchResult) :=
  let chosen : Except DispatchFailure (RequestContext × Selection) := do
    let context ← request.context captures
    let selection ← (endpoint.select context).mapError .failed
    return (context, selection)
  match chosen with
  | .ok (context, selection) => respond mode endpoint context selection
  | .error failure => ⟨[], .error failure⟩

/-- The result of a request. -/
def dispatch (settings : DispatchSettings) (registry : Registry) (request : DispatchRequest) :
    Waited (Except DispatchFailure DispatchResult) :=
  let method := request.method.toUpper
  match Url.path settings.pathPrefix request.url with
  | .error fault => ⟨[], .error (.badUrl fault)⟩
  | .ok path =>
    match registry.find? method path with
    | some (endpoint, captures) => serve settings.renderMode request endpoint captures
    | none => ⟨[], .ok (.notFound method request.url registry.identities)⟩

end Dispatch

end MockApi
