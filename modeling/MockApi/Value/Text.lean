import MockApi.Number.Layout
import MockApi.Value.Basic

/-!
# Values as text

The text of a value inside a larger text: texts stand for themselves, lists show their items with
commas between them, and objects show no more than that they are objects. Items that are nullish
show nothing.
-/

namespace MockApi.Value

/-- The text of a truth value. -/
def boolText (b : Bool) : Text := if b then "true" else "false"

/-- The text of a value that is nested no more than `levels` deep. -/
def textWithin : Nat → Value → Except Failure Text
  | _, null => .ok "null"
  | _, undefined => .ok "undefined"
  | _, bool b => .ok (boolText b)
  | _, number x => x.write .display
  | _, text t => .ok t
  | _, object .. => .ok "[object Object]"
  | 0, list .. => .error .nestingTooDeep
  | levels + 1, list _ items => do
    let texts ← items.mapM fun item ↦
      if item.isNullish then pure [] else textWithin levels item
    return Text.join "," texts

/-- The text of a value. -/
def toText [Stack] (value : Value) : Except Failure Text := value.textWithin Stack.texts

theorem toText_text [Stack] (t : Text) : (text t).toText = .ok t := by
  simp [toText, textWithin]

end MockApi.Value
