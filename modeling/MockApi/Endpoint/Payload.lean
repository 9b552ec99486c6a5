import MockApi.Number.Numeral
import MockApi.Endpoint.Method
import MockApi.Value.Json
import MockApi.Value.Shown

/-!
# Reading payloads

Endpoints are described by payloads: objects with a few known entries, most of them optional and
read with some leniency. Here are the problems a payload can have, and the readers of single
entries. An entry that is read may also fail for a reason that has nothing to do with the
description, such as a number too long to be written.
-/

namespace MockApi

/-- What is wrong with a payload. -/
inductive PayloadProblem
  /-- The payload of an endpoint is no object. -/
  | notAnObject
  /-- There is no path, or a blank one. -/
  | pathMissing
  /-- The headers are no object. -/
  | headersNotAnObject
  /-- There is no method, or a blank one. -/
  | methodMissing
  /-- The method is not among those allowed. -/
  | methodUnsupported (given : Text)
  /-- An entry is no integer. -/
  | integerExpected (entry : Text)
  /-- An entry is a text that writes no integer. -/
  | integerUnreadable (entry given : Text)
  /-- An integer is too small. -/
  | tooSmall (entry : Text) (minimum : Nat)
  /-- An integer is too large. -/
  | tooLarge (entry : Text) (maximum : Nat)
  /-- A template is no text. -/
  | templateNotText
  /-- The scenarios are no list. -/
  | scenariosNotAList
  /-- A scenario is no object. -/
  | scenarioNotAnObject (index : Int)
  /-- The condition of a scenario is no text. -/
  | conditionNotText (index : Int)
deriving DecidableEq, Repr

namespace PayloadProblem

/-- The wording of a problem. -/
def message : PayloadProblem → Text
  | notAnObject => "endpoint definition must be an object"
  | pathMissing => "endpointId is required"
  | headersNotAnObject => "headers must be an object"
  | methodMissing => "method must be a non-empty string"
  | methodUnsupported given =>
    "Unsupported method '" ++ given ++ "'. Expected one of: "
      ++ Text.join ", " (Method.allowed.map Method.name) ++ " or " ++ Method.any.name
  | integerExpected entry => entry ++ " must be an integer"
  | integerUnreadable entry given => entry ++ " must be an integer, got '" ++ given ++ "'"
  | tooSmall entry minimum => entry ++ " must be >= " ++ Text.ofNat minimum
  | tooLarge entry maximum => entry ++ " must be <= " ++ Text.ofNat maximum
  | templateNotText => "responseTemplate must be a string"
  | scenariosNotAList => "scenarios must be a list"
  | scenarioNotAnObject index => "scenarios[" ++ Text.ofInt index ++ "] must be an object"
  | conditionNotText index => "scenarios[" ++ Text.ofInt index ++ "].condition must be a string"

/-- The entry that a problem is about. -/
def field? : PayloadProblem → Option Text
  | notAnObject => none
  | pathMissing => some "endpointId"
  | headersNotAnObject => some "headers"
  | methodMissing | methodUnsupported _ => some "method"
  | integerExpected entry | integerUnreadable entry _ | tooSmall entry _ | tooLarge entry _ =>
    some entry
  | templateNotText => some "responseTemplate"
  | scenariosNotAList | scenarioNotAnObject _ => some "scenarios"
  | conditionNotText _ => some "condition"

end PayloadProblem

/-- Why a payload was not read. -/
inductive PayloadError
  /-- The payload describes no endpoint. -/
  | invalid (problem : PayloadProblem)
  /-- A part of the payload could not be turned into text. -/
  | failed (failure : Failure)
deriving DecidableEq, Repr

namespace Payload

/-- The entry of a payload under a name, or `null`. -/
def entry (payload : Entries) (name : Text) : Value := (payload.get? name).getD .null

/-- The integer that a value gives: an integer, a whole double, or a text that writes one. -/
def integer (name : Text) : Value → Except PayloadProblem Int
  | .number (.int n) => .ok n
  | .number (.double x) => match x.toInt? with
    | some n => .ok n
    | none => .error (.integerExpected name)
  | .text t => match integerOfText t.trim with
    | .ok n => .ok n
    | .error _ => .error (.integerUnreadable name t)
  | _ => .error (.integerExpected name)

/-- The integer of an entry between bounds, or the default if there is no such entry. -/
def boundedInteger (payload : Entries) (name : Text) (default minimum : Nat)
    (maximum? : Option Nat) : Except PayloadProblem Nat :=
  match payload.get? name with
  | none => .ok default
  | some value => do
    let n ← integer name value
    if n < minimum then throw (.tooSmall name minimum)
    if let some maximum := maximum? then
      if maximum < n then throw (.tooLarge name maximum)
    return n.toNat

/-- The status code of a payload. -/
def status (payload : Entries) (default : Nat) : Except PayloadProblem Nat :=
  boundedInteger payload "statusCode" default 100 (some 599)

/-- The delay of a payload, in milliseconds. -/
def delay (payload : Entries) (default : Nat) : Except PayloadProblem Nat :=
  boundedInteger payload "delay" default 0 none

/-- The response template of a payload. An older entry may give it as any value, which stands for
its JSON text. -/
def template [Stack] (payload : Entries) (default : Text) : Except PayloadError Text :=
  match entry payload "responseTemplate", entry payload "response" with
  | .text t, _ => .ok t
  | .null, .null => .ok default
  | .null, .text t => .ok t
  | .null, value => value.toJson.mapError .failed
  | _, _ => .error (.invalid .templateNotText)

/-- The method that a value names. -/
def method : Value → Except PayloadProblem Method
  | .text t =>
    if t.trim.isEmpty then .error .methodMissing
    else match Method.ofName? t with
      | some method => .ok method
      | none => .error (.methodUnsupported t)
  | _ => .error .methodMissing

theorem method_name (m : Method) : method (.text m.name) = .ok m := by
  have h : (Text.trim m.name).isEmpty = false := by cases m <;> decide +kernel
  simp [method, h, Method.ofName?_name]

end Payload

end MockApi
