import MockApi.Json.Reader
import MockApi.Text.WideEncoding
import MockApi.Url.Basic
import MockApi.Url.Form

/-!
# Requests to a server

A request arrives with its path already decoded and its query as it was sent. A body that is no JSON
counts as an empty object, like a body that is missing; only a number beyond the digit limit and
nesting beyond the limit are failures.
-/

namespace MockApi

/-- A request to a server. -/
structure HttpRequest where
  /-- The method. -/
  method : Text
  /-- The decoded path, with a slash in front. -/
  path : Text
  /-- The query as it was sent, without the question mark. -/
  query : Text
  /-- The octets of the body. -/
  body : Text.Utf8.Octets
deriving DecidableEq, Repr

namespace HttpRequest

/-- The path with the query, as far as a URL made from both keeps them apart. -/
def target (request : HttpRequest) : Text :=
  let url := if request.query.isEmpty then request.path
    else request.path ++ '?'.toNat :: request.query
  let url := Text.before '#'.toNat (Url.clean url)
  match Text.cut? '?'.toNat url with
  | some (path, []) => path
  | _ => url

/-- The value of a form-encoded parameter of the query. -/
def parameter? (request : HttpRequest) (name : Text) : Option Text :=
  Form.last? ((Text.Utf8.encode? request.query).getD []) name

variable [Stack]

/-- The value of the body. -/
def content (request : HttpRequest) : Except Failure Value :=
  if request.body.isEmpty then .ok (.ofEntries [])
  else match (Text.ofDocument? request.body).map (Json.read true) with
    | some (.ok value) => .ok value
    | some (.error (.failed failure)) => .error failure
    | some (.error _) | none => .ok (.ofEntries [])

theorem content_nil (method path query : Text) :
    (HttpRequest.mk method path query []).content = .ok (.ofEntries []) := rfl

/-- A body that is JSON has its value for the content. -/
theorem content_of_read {request : HttpRequest} {t : Text} {value : Value}
    (hbody : request.body ≠ []) (ht : Text.ofDocument? request.body = some t)
    (h : Json.read true t = .ok value) : request.content = .ok value := by
  rw [content, if_neg (by simpa using hbody), ht, Option.map_some, h]

end HttpRequest

end MockApi
