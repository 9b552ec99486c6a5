import MockApi.Number.Numeral
import MockApi.Value.Text

/-!
# Coercion

How values turn into numbers, plain values and truth values. Containers turn into their texts first.
A text counts as a number if it writes one; otherwise it counts as NaN, and so does `undefined`.
-/

namespace MockApi.Value

variable [Stack]

/-- The value with containers replaced by their texts. -/
def toPrimitive (value : Value) : Except Failure Value :=
  if value.isContainer then value.toText.map .text else .ok value

/-- The number that a text counts as. -/
def numberOfText (t : Text) : Number := (Number.ofText? t).getD .nan

/-- The number that a value counts as. -/
def toNumber : Value → Except Failure Number
  | null => .ok (.int 0)
  | undefined => .ok .nan
  | bool b => .ok (.int (if b then 1 else 0))
  | number x => .ok x
  | text t => .ok (numberOfText t)
  | container => container.toText.map numberOfText

/-- Whether a value counts as true. A huge integer is no double, so it fails to be tested for
NaN. -/
def truthy : Value → Except Failure Bool
  | null | undefined => .ok false
  | bool b => .ok b
  | number x => if x.isZero then .ok false else x.testNaN.map (!·)
  | text t => .ok !t.isEmpty
  | list .. | object .. => .ok true

theorem toPrimitive_of_not_container {value : Value} (h : value.isContainer = false) :
    value.toPrimitive = .ok value := by
  simp [toPrimitive, h]

end MockApi.Value
