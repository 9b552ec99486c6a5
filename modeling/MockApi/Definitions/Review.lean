import MockApi.Condition.Basic
import MockApi.Endpoint.Definition
import MockApi.Route.Pattern
import MockApi.Template.Placeholder

/-!
# Reviewing definitions

Endpoints that can be read may still be broken in ways that would only show when requests arrive: a
condition that does not parse is an error, a condition that is blank and a placeholder for something
that the pattern does not capture are worth a warning.
-/

namespace MockApi

/-- What a review of an endpoint finds. -/
inductive Issue
  /-- The condition of a scenario does not parse. -/
  | brokenCondition (endpoint scenario source : Text) (error : ConditionError)
  /-- The condition of a scenario is blank. -/
  | emptyCondition (endpoint scenario : Text)
  /-- A template refers to a path parameter that is not captured; the default response belongs to
  no scenario. -/
  | uncaptured (endpoint : Text) (scenario? : Option Text) (name : Text)

namespace Issue

/-- Whether an issue is an error rather than a warning. -/
def isError : Issue → Bool
  | brokenCondition .. => true
  | emptyCondition .. | uncaptured .. => false

/-- The scenario of a name in words. -/
def scenarioLabel (name : Text) : Text := "scenario '" ++ name ++ "'"

/-- The wording of an issue. -/
def message : Issue → Text
  | brokenCondition endpoint scenario source error =>
    endpoint ++ " " ++ scenarioLabel scenario ++ ": " ++ (error.message? source).getD []
  | emptyCondition endpoint scenario =>
    endpoint ++ " " ++ scenarioLabel scenario ++ ": empty condition, scenario is never selected"
  | uncaptured endpoint scenario? name =>
    let place : Text := match scenario? with
      | some scenario => scenarioLabel scenario
      | none => "default response"
    endpoint ++ " " ++ place ++ ": \x7b\x7bpath." ++ name
      ++ "\x7d\x7d is not captured by the pattern"

end Issue

namespace Endpoint

/-- The names that the pattern of an endpoint captures. -/
def captureNames (endpoint : Endpoint) : List Text :=
  (Route.segments endpoint.path).filterMap Route.captureName?

variable [Stack]

/-- The issue of the condition of a scenario. -/
def conditionIssue? (endpoint : Endpoint) (scenario : Scenario) : Option Issue :=
  if Condition.isBlank scenario.condition then
    some (.emptyCondition endpoint.identity scenario.name)
  else match Condition.compile scenario.condition with
    | .ok _ => none
    | .error error =>
      some (.brokenCondition endpoint.identity scenario.name scenario.condition error)

/-- The issues of a template. -/
def templateIssues (endpoint : Endpoint) (scenario? : Option Text) (template : Text) :
    List Issue :=
  ((Template.namesOf .path template).filter fun name ↦ !endpoint.captureNames.contains name).map
    (.uncaptured endpoint.identity scenario?)

/-- The issues of an endpoint. -/
def issues (endpoint : Endpoint) : List Issue :=
  endpoint.scenarios.filterMap endpoint.conditionIssue?
    ++ endpoint.templateIssues none endpoint.response.template
    ++ endpoint.scenarios.flatMap fun scenario ↦
      endpoint.templateIssues (some scenario.name) scenario.template

end Endpoint

namespace Definitions

/-- The issues of endpoints. -/
def review [Stack] (endpoints : List Endpoint) : List Issue := endpoints.flatMap Endpoint.issues

/-- The errors among some issues. -/
def errors (issues : List Issue) : List Issue := issues.filter Issue.isError

/-- The warnings among some issues. -/
def warnings (issues : List Issue) : List Issue := issues.filter (!Issue.isError ·)

end Definitions

end MockApi
