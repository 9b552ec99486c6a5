import MockApi.Text.Blank
import MockApi.Text.UpperCase

/-!
# Methods

The methods an endpoint can be defined for: five methods of requests, and one that stands for any
method. The names of methods are read without regard to case and to white space around them.
-/

namespace MockApi

/-- The method of an endpoint. -/
inductive Method
  | get
  | post
  | put
  | delete
  | patch
  /-- Any method at all. -/
  | any
deriving DecidableEq, Repr

namespace Method

/-- The name of a method. -/
def name : Method → Text
  | get => "GET"
  | post => "POST"
  | put => "PUT"
  | delete => "DELETE"
  | patch => "PATCH"
  | any => "ALL"

/-- The methods of requests. -/
def allowed : List Method := [get, post, put, delete, patch]

/-- The names of the method that stands for any. -/
def wildcards : List Text := ["ALL", "*", "ANY"]

/-- The method of a name. -/
def ofName? (t : Text) : Option Method :=
  let t := (Text.trim t).toUpper
  if wildcards.contains t then some any else allowed.find? (·.name = t)

/-- Whether an endpoint with this method answers a request with the method `t`. -/
def answers (method : Method) (t : Text) : Bool := method = any || method.name = t.toUpper

theorem ofName?_name (method : Method) : ofName? method.name = some method := by
  cases method <;> decide +kernel

end Method

end MockApi
