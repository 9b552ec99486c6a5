import MockApi.Value.Coercion

/-!
# Properties of values

A property is asked for by a key, which is any value and counts as its text. Objects answer with
their entries, lists and texts with their length and, under the plain decimal of an index, with an
item. Everything else answers `undefined`, except that `null` and `undefined` refuse the question.
-/

namespace MockApi.Value

/-- The index that a key names: the key is the plain decimal of it. A key that looks like a number
is read as one, and the reading may fail. -/
def index? (key : Text) : Except Failure (Option Nat) := do
  if key ≠ [] ∧ key.all Text.isDigitLike then
    let n ← integerOfText key
    return if Text.ofInt n = key then some n.toNat else none
  else return none

/-- What a sequence answers to a key. -/
def sequenceProperty (items : List Value) (key : Text) : Except Failure Value := do
  if key = "length" then return .int items.length
  match ← index? key with
  | some i => return items[i]?.getD .undefined
  | none => return .undefined

variable [Stack]

/-- The property of a value under a key. -/
def property (target key : Value) : Except Failure Value := do
  let name ← key.toText
  match target with
  | null => throw (.noProperties "null" name)
  | undefined => throw (.noProperties "undefined" name)
  | object _ entries => return (Table.get? entries name).getD .undefined
  | list _ items => sequenceProperty items name
  | text t => sequenceProperty (t.map fun c ↦ .text [c]) name
  | bool _ | number _ => return .undefined

end MockApi.Value
