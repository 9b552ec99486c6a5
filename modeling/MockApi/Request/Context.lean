import MockApi.Condition.Eval

/-!
# Request contexts

What a request brings along for its response: the path and query parameters and the body. All three
are values, usually objects; a part that is `null` counts as an empty object for conditions.
-/

namespace MockApi

/-- The data of one request. -/
structure RequestContext where
  /-- The parameters captured from the path or given explicitly. -/
  path : Value
  /-- The parameters of the query. -/
  query : Value
  /-- The body. -/
  body : Value

namespace RequestContext

/-- The value bound to a name: an empty object in place of `null`. -/
def boundValue : Value → Value
  | .null => .ofEntries []
  | value => value

/-- The bindings that conditions on the request see; every container has an identity of its own. -/
def bindings (context : RequestContext) : Bindings :=
  Bindings.withIdentities
    ⟨boundValue context.path, boundValue context.query, boundValue context.body⟩

/-- The part of a context under a bound name. -/
def get (context : RequestContext) : BoundName → Value
  | .path => context.path
  | .query => context.query
  | .body => context.body

end RequestContext

end MockApi
