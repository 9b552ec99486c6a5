import MockApi.Number.Layout
import MockApi.Text.Quoted
import MockApi.Value.Basic

/-!
# Values shown in full

Headers and names given as something other than texts are shown in full: texts inside them are
quoted, and lists and objects show everything they hold. A text by itself stands for itself.
-/

namespace MockApi.Value

/-- A value in full, nested no more than `levels` deep, with texts quoted. -/
def quotedWithin : Nat → Value → Except Failure Text
  | _, null => .ok "None"
  | _, undefined => .ok "undefined"
  | _, bool b => .ok (if b then "True" else "False")
  | _, number x => x.write .literal
  | _, text t => .ok t.quoted
  | 0, list .. | 0, object .. => .error .nestingTooDeep
  | levels + 1, list _ items => do
    return '['.toNat :: Text.join ", " (← items.mapM (quotedWithin levels)) ++ "]"
  | levels + 1, object _ entries => do
    let shown ← entries.mapM fun (key, value) ↦ do
      return key.quoted ++ ": " ++ (← quotedWithin levels value)
    return 0x7B :: Text.join ", " shown ++ [0x7D]

/-- A value in full; a text stands for itself. -/
def shown [Stack] : Value → Except Failure Text
  | text t => .ok t
  | value => value.quotedWithin Stack.shown

/-- The name of the type of a value, as messages give it. -/
def typeName : Value → Text
  | null => "NoneType"
  | undefined => "_Undefined"
  | bool _ => "bool"
  | number (.int _) => "int"
  | number (.double _) => "float"
  | text _ => "str"
  | list .. => "list"
  | object .. => "dict"

/-- Whether a value counts as not given: nullish values, false, zero, and whatever is empty. -/
def isVacant : Value → Bool
  | null | undefined => true
  | bool b => !b
  | number x => x.isZero
  | text t => t.isEmpty
  | list _ items => items.isEmpty
  | object _ entries => entries.isEmpty

end MockApi.Value
