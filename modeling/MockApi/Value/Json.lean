import MockApi.Json.Writer
import MockApi.Value.Text

/-!
# Values as JSON

A value is put into a text as compact JSON. JSON has neither `undefined` nor numbers that are not
finite, so these become `null` first, and whole doubles below `10 ^ 21` become integers.
-/

namespace MockApi.Value

/-- A number with whole doubles as integers and without NaN and infinities. -/
def jsonNumber (x : Double) : Value :=
  if x.isNaN || x.isInfinite then null
  else match x.toInt?.filter (·.natAbs < Double.tenTo 21) with
    | some n => int n
    | none => double x

/-- The value as JSON can express it, for a value nested no more than `levels` deep. -/
def jsonReadyWithin : Nat → Value → Except Failure Value
  | _, undefined => .ok null
  | _, number (.double x) => .ok (jsonNumber x)
  | 0, list .. | 0, object .. => .error .nestingTooDeep
  | levels + 1, list _ items => do
    return ofItems (← items.mapM (jsonReadyWithin levels))
  | levels + 1, object _ entries => do
    return ofEntries (← entries.mapM fun (key, value) ↦ do
      return (key, ← jsonReadyWithin levels value))
  | _, value => .ok value

variable [Stack]

/-- The value as JSON can express it. -/
def jsonReady (value : Value) : Except Failure Value := value.jsonReadyWithin Stack.ready

/-- The compact JSON text of a value. -/
def toJson (value : Value) : Except Failure Text := do
  Json.write .compact (← value.jsonReady)

/-- The text that takes the place of a placeholder: JSON for a container, plain text otherwise. -/
def toReplacement (value : Value) : Except Failure Text :=
  if value.isContainer then value.toJson else value.toText

theorem toReplacement_text (t : Text) : (text t).toReplacement = .ok t := by
  simp [toReplacement, isContainer, toText_text]

end MockApi.Value
