import MockApi.Condition.Basic
import MockApi.Endpoint.Definition
import MockApi.Request.Context

/-!
# Selecting a response

The response to a request is that of the first scenario whose condition holds for the request, or
the default of the endpoint.
-/

namespace MockApi

/-- A response chosen for a request. -/
structure Selection where
  /-- The response. -/
  response : Response
  /-- The name of the scenario, unless the response is the default. -/
  scenario? : Option Text
deriving DecidableEq, Repr

/-- The response of a scenario. -/
def Scenario.response (scenario : Scenario) : Response :=
  ⟨scenario.status, scenario.delay, scenario.template⟩

namespace Endpoint

variable [Stack]

/-- The first of some scenarios whose condition holds. -/
def firstHolding (bindings : Bindings) : List Scenario → Except Failure (Option Scenario)
  | [] => .ok none
  | scenario :: scenarios => do
    if ← Condition.holds scenario.condition bindings then return some scenario
    else firstHolding bindings scenarios

/-- The response that an endpoint gives to a request. -/
def select (endpoint : Endpoint) (context : RequestContext) : Except Failure Selection := do
  match ← firstHolding context.bindings endpoint.scenarios with
  | some scenario => return ⟨scenario.response, some scenario.name⟩
  | none => return ⟨endpoint.response, none⟩

end Endpoint

/-- A selection as a value. -/
def Selection.toValue (selection : Selection) : Value :=
  .ofEntries [("statusCode", .int selection.response.status),
    ("delay", .int selection.response.delay),
    ("responseTemplate", .text selection.response.template),
    ("scenario", (selection.scenario?.map Value.text).getD .null)]

end MockApi
