import MockApi.Endpoint.Payload

/-!
# Endpoint definitions

An endpoint is a path pattern and a method with a default response, headers, and scenarios that
replace the response under a condition. Endpoints are read from payloads and written back to
payloads; reading what was written gives the same endpoint.

The identity of an endpoint is the text of its path and method. Two endpoints with one identity
never stand next to each other: the later one takes the place of the earlier.
-/

namespace MockApi

/-- A response under a condition. -/
structure Scenario where
  /-- The name of the scenario. -/
  name : Text
  /-- The condition; a blank one never holds. -/
  condition : Text
  /-- The status code of the response. -/
  status : Nat
  /-- The delay of the response in milliseconds. -/
  delay : Nat
  /-- The template of the response. -/
  template : Text
deriving DecidableEq, Repr

/-- A response that waits to be filled in. -/
structure Response where
  /-- The status code. -/
  status : Nat
  /-- The delay in milliseconds. -/
  delay : Nat
  /-- The template. -/
  template : Text
deriving DecidableEq, Repr

/-- The response of an endpoint that gives none. -/
def Response.standard : Response := ⟨200, 0, [0x7B, 0x7D]⟩

/-- A path pattern and a method with their responses. -/
structure Endpoint where
  /-- The path pattern. -/
  path : Text
  /-- The method. -/
  method : Method
  /-- The response if no scenario applies. -/
  response : Response
  /-- The headers of every response. -/
  headers : Table Text
  /-- The scenarios in order of precedence. -/
  scenarios : List Scenario
  /-- The time of creation, or whatever the payload gave for it. -/
  createdAt : Value
  /-- The time of the last update, or whatever the payload gave for it. -/
  updatedAt : Value

/-- The identity of a path pattern and the name of a method. -/
def identityOf (path method : Text) : Text := path ++ '-'.toNat :: method.toUpper

/-- The identity of an endpoint. -/
def Endpoint.identity (endpoint : Endpoint) : Text := identityOf endpoint.path endpoint.method.name

/-! ## Scenarios -/

namespace Scenario

/-- The condition that a payload gives, if it is a text or vacant. -/
def conditionOfPayload (index : Int) (payload : Entries) : Except PayloadProblem Text :=
  match Payload.entry payload "condition" with
  | .text t => .ok t
  | value => if value.isVacant then .ok [] else .error (.conditionNotText index)

variable [Stack]

/-- The name that a payload gives, or one made from the index. -/
def nameOfPayload (index : Int) (payload : Entries) : Except Failure Text :=
  let name := Payload.entry payload "name"
  if name.isVacant then .ok (("Scenario " : Text) ++ Text.ofInt (index + 1)) else name.shown

/-- The scenario that a payload describes, at an index of its list. What the payload does not give
is taken from `default`. -/
def ofPayload (index : Int) (default : Response) : Value → Except PayloadError Scenario
  | .object _ payload => do
    let condition ← (conditionOfPayload index payload).mapError .invalid
    let name ← (nameOfPayload index payload).mapError .failed
    let status ← (Payload.status payload default.status).mapError .invalid
    let delay ← (Payload.delay payload default.delay).mapError .invalid
    let template ← Payload.template payload default.template
    return ⟨name, condition, status, delay, template⟩
  | _ => .error (.invalid (.scenarioNotAnObject index))

/-- The payload of a scenario. -/
def toPayload (scenario : Scenario) : Value :=
  .ofEntries [("name", .text scenario.name), ("condition", .text scenario.condition),
    ("statusCode", .int scenario.status), ("delay", .int scenario.delay),
    ("responseTemplate", .text scenario.template)]

/-- The scenarios that payloads describe, from an index on. -/
def ofPayloads (default : Response) : Nat → List Value → Except PayloadError (List Scenario)
  | _, [] => .ok []
  | index, payload :: payloads => do
    let scenario ← ofPayload index default payload
    return scenario :: (← ofPayloads default (index + 1) payloads)

end Scenario

/-! ## Endpoints -/

namespace Endpoint

/-- The path pattern that a payload gives, without white space at its ends and with a slash in
front. -/
def pathOfPayload (payload : Entries) : Except PayloadProblem Text :=
  match Payload.entry payload "endpointId" with
  | .text t =>
    match t.trim with
    | [] => .error .pathMissing
    | c :: rest => .ok (if c = '/'.toNat then c :: rest else '/'.toNat :: c :: rest)
  | _ => .error .pathMissing

/-- The headers that a payload gives, if they are an object or vacant. -/
def rawHeaders (payload : Entries) : Except PayloadProblem Entries :=
  match Payload.entry payload "headers" with
  | .object _ entries => .ok entries
  | value => if value.isVacant then .ok [] else .error .headersNotAnObject

/-- The method that a payload gives. -/
def methodOfPayload (payload : Entries) : Except PayloadProblem Method :=
  match payload.get? "method" with
  | none => .ok .get
  | some value => Payload.method value

/-- The payloads of the scenarios, if they are a list or vacant. -/
def rawScenarios (payload : Entries) : Except PayloadProblem (List Value) :=
  match Payload.entry payload "scenarios" with
  | .list _ items => .ok items
  | value => if value.isVacant then .ok [] else .error .scenariosNotAList

/-- The endpoint that a payload describes. -/
def ofPayload [Stack] : Value → Except PayloadError Endpoint
  | .object _ payload => do
    let path ← (pathOfPayload payload).mapError .invalid
    let headers ← (rawHeaders payload).mapError .invalid
    let method ← (methodOfPayload payload).mapError .invalid
    let status ← (Payload.status payload Response.standard.status).mapError .invalid
    let delay ← (Payload.delay payload Response.standard.delay).mapError .invalid
    let template ← Payload.template payload Response.standard.template
    let headers ← headers.mapM fun (name, value) ↦ do
      return (name, ← value.shown.mapError .failed)
    let response : Response := ⟨status, delay, template⟩
    let scenarios ← Scenario.ofPayloads response 0 (← (rawScenarios payload).mapError .invalid)
    return ⟨path, method, response, headers, scenarios, Payload.entry payload "createdAt",
      Payload.entry payload "updatedAt"⟩
  | _ => .error (.invalid .notAnObject)

/-- The payload of an endpoint, together with its identity. -/
def toPayload (endpoint : Endpoint) : Value :=
  .ofEntries [("id", .text endpoint.identity), ("endpointId", .text endpoint.path),
    ("method", .text endpoint.method.name), ("statusCode", .int endpoint.response.status),
    ("delay", .int endpoint.response.delay),
    ("responseTemplate", .text endpoint.response.template),
    ("headers", .ofEntries (endpoint.headers.map fun (name, value) ↦ (name, .text value))),
    ("scenarios", .ofItems (endpoint.scenarios.map Scenario.toPayload)),
    ("createdAt", endpoint.createdAt), ("updatedAt", endpoint.updatedAt)]

end Endpoint

end MockApi
