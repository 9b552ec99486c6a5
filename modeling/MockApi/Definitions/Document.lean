import MockApi.Endpoint.Definition

/-!
# Documents of definitions

Endpoints are defined in documents. A document is a list of payloads, an object that has such a list
as its entry `endpoints`, or the payload of a single endpoint. The first entry that describes no
endpoint is reported with its place.
-/

namespace MockApi

/-- Why a document defines no endpoints. -/
inductive DocumentError
  /-- The document is no list of payloads but something of this type. -/
  | notAList (typeName : Text)
  /-- A payload describes no endpoint. -/
  | invalidEntry (index : Nat) (problem : PayloadProblem)
  /-- A part of a payload could not be turned into text. -/
  | failed (failure : Failure)
deriving DecidableEq, Repr

namespace DocumentError

/-- The wording of an error in the document of a name; some failures go without words. -/
def message? (source : Text) : DocumentError → Option Text
  | notAList typeName =>
    some (source ++ ": expected a list of endpoint definitions, got " ++ typeName)
  | invalidEntry index problem =>
    some (source ++ ": endpoint #" ++ Text.ofNat index ++ ": " ++ problem.message)
  | failed failure => failure.message?

/-- The entry of a payload that an error is about. -/
def field? : DocumentError → Option Text
  | invalidEntry _ problem => problem.field?
  | notAList _ | failed _ => none

end DocumentError

namespace Definitions

/-- The payloads in a document. -/
def payloads : Value → Except DocumentError (List Value)
  | .object identity entries => match Table.get? entries "endpoints" with
    | some (.list _ items) => .ok items
    | some value => .error (.notAList value.typeName)
    | none => .ok [.object identity entries]
  | .list _ items => .ok items
  | value => .error (.notAList value.typeName)

variable [Stack]

/-- The endpoints of payloads, the first of which has the given index. -/
def ofPayloads : Nat → List Value → Except DocumentError (List Endpoint)
  | _, [] => .ok []
  | index, payload :: payloads =>
    match Endpoint.ofPayload payload with
    | .error (.invalid problem) => .error (.invalidEntry index problem)
    | .error (.failed failure) => .error (.failed failure)
    | .ok endpoint => do return endpoint :: (← ofPayloads (index + 1) payloads)

/-- The endpoints that a document defines. -/
def ofDocument (document : Value) : Except DocumentError (List Endpoint) := do
  ofPayloads 0 (← payloads document)

/-- Every payload gives one endpoint. -/
theorem length_ofPayloads {payloads : List Value} {index : Nat} {endpoints : List Endpoint}
    (h : ofPayloads index payloads = .ok endpoints) : endpoints.length = payloads.length := by
  induction payloads generalizing index endpoints with
  | nil =>
    cases h
    rfl
  | cons payload payloads ih =>
    unfold ofPayloads at h
    split at h
    · cases h
    · cases h
    · cases hrest : ofPayloads (index + 1) payloads with
      | error e =>
        rw [hrest] at h
        cases h
      | ok rest =>
        rw [hrest] at h
        cases h
        simp [ih hrest]

end Definitions

end MockApi
