import MockApi.Text.Basic

/-!
# Policies of routing

Several endpoints may answer one request. A policy says which of them does; the only one so far is
to take the first that was registered, as `Registry.find?` does.
-/

namespace MockApi

/-- The ways to choose among endpoints that answer the same request. -/
inductive RoutePolicy
  | firstMatch
deriving DecidableEq, Repr

namespace RoutePolicy

/-- The name of a policy. -/
def name : RoutePolicy → Text
  | firstMatch => "first_match"

/-- All policies. -/
def all : List RoutePolicy := [firstMatch]

/-- The policy of a name. -/
def ofName? (t : Text) : Option RoutePolicy := all.find? (·.name = t)

/-- The wording of the complaint about an unknown name. -/
def unknownMessage (t : Text) : Text :=
  "Unknown route policy '" ++ t ++ "'. Expected one of: " ++ Text.join ", " (all.map name)

theorem ofName?_name (policy : RoutePolicy) : ofName? policy.name = some policy := by
  cases policy
  decide

end RoutePolicy

end MockApi
