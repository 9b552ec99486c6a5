import MockApi.Server.Reply
import MockApi.Server.Request
import MockApi.Text.Line

/-!
# Routes of a server

A server is a table of routes in a web framework: one for each action of administration, and one for
its endpoints. A request goes to the first route that takes it.

The framework has pages of its own, such as those that document the routes, and it answers by itself
if no route takes a request or if a request lacks a parameter that its route needs. What it answers
then is its own affair, so servers are parametrised by it.
-/

namespace MockApi

/-! ## Actions of administration -/

/-- What a server can be asked to do with itself. -/
inductive AdminAction
  /-- Tell whether it is well. -/
  | health
  /-- Tell its metrics. -/
  | metrics
  /-- List its endpoints. -/
  | list
  /-- Register an endpoint. -/
  | save
  /-- Register the endpoints of a document. -/
  | load
  /-- Look an endpoint up. -/
  | look
  /-- Delete an endpoint. -/
  | delete
  /-- Dispatch a request without counting it. -/
  | rehearse
  /-- Go back to the beginning. -/
  | reset
deriving DecidableEq, Repr

namespace AdminAction

/-- The method that asks for an action. -/
def method : AdminAction → Text
  | health | metrics | list | look => "GET"
  | save | load | rehearse | reset => "POST"
  | delete => "DELETE"

/-- The path of an action below the path of administration. -/
def path : AdminAction → Text
  | health => "/health"
  | metrics => "/metrics"
  | list | save => "/endpoints"
  | load => "/endpoints/import"
  | look | delete => "/endpoint"
  | rehearse => "/test"
  | reset => "/reset"

/-- All actions. -/
def all : List AdminAction := [health, metrics, list, save, load, look, delete, rehearse, reset]

/-- Whether a request asks for an action below a path. A line feed at the end does not count. -/
def isAskedBy (action : AdminAction) (stem : Text) (request : HttpRequest) : Bool :=
  request.method = action.method && Text.dropFinalLineFeed request.path = stem ++ action.path

end AdminAction

/-! ## The framework -/

/-- A web framework. -/
class Framework where
  /-- Whether a method and a path ask for a page of its own. -/
  owns (method path : Text) : Bool
  /-- None of these pages is where an action of administration is. -/
  isAskedBy_eq_false {request : HttpRequest} (h : owns request.method request.path = true)
    (action : AdminAction) (stem : Text) : action.isAskedBy stem request = false
  /-- The reply to a request for one of these pages, or to one that no route takes. -/
  reply (method path query : Text) : Except ServiceFailure Reply
  /-- The reply to a request without a parameter that its route needs. -/
  missing (parameter : Text) : Except ServiceFailure Reply

/-- A framework without pages of its own, which answers without saying anything. -/
abbrev Framework.bare : Framework where
  owns _ _ := false
  isAskedBy_eq_false h := absurd h Bool.false_ne_true
  reply _ _ _ := Reply.bare 404 []
  missing _ := Reply.bare 422 []

/-! ## The route of the endpoints -/

/-- The methods of the requests that endpoints answer. -/
def endpointMethods : List Text :=
  ["GET", "POST", "PUT", "DELETE", "PATCH", "HEAD", "OPTIONS"]

/-- Whether the route of the endpoints takes a request, if it asks for no action of administration.
There is no line feed in the path of such a request but at the end. -/
def HttpRequest.isForEndpoints [Framework] (request : HttpRequest) : Bool :=
  !Framework.owns request.method request.path && endpointMethods.contains request.method
    && !(Text.dropFinalLineFeed request.path).contains Text.lineFeed

end MockApi
