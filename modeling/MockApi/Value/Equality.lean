import MockApi.Value.Coercion

/-!
# Equality of values

Strict equality compares values of one kind: containers by identity, everything else by what it is.
Loose equality is strict equality within a kind and coerces between kinds: `null` and `undefined`
equal each other and nothing else, truth values count as numbers, a text next to a number counts as
a number, and a container next to anything else counts as its text.
-/

namespace MockApi.Value

/-- The identity of a container. -/
def identity? : Value → Option Nat
  | list identity _ | object identity _ => some identity
  | _ => none

/-- Whether two values are of one kind and equal. -/
def strictEquals : Value → Value → Bool
  | null, null | undefined, undefined => true
  | bool a, bool b => a = b
  | number x, number y => x.equals y
  | text s, text t => s = t
  | a, b => a.isContainer && b.isContainer && a.identity? = b.identity?

/-- Equality of two values that are numbers or texts: a text next to a number counts as one. -/
def scalarEquals : Value → Value → Bool
  | number x, text t => x.equals (numberOfText t)
  | text s, number y => (numberOfText s).equals y
  | a, b => a.strictEquals b

/-- The number that a truth value counts as; every other value is left alone. -/
def boolAsNumber : Value → Value
  | bool b => int (if b then 1 else 0)
  | value => value

variable [Stack]

/-- Whether two values are equal after coercion. -/
def looseEquals (a b : Value) : Except Failure Bool :=
  if a.kind = b.kind then .ok (a.strictEquals b)
  else if a.isNullish || b.isNullish then .ok (a.isNullish && b.isNullish)
  else do
    let a ← a.boolAsNumber.toPrimitive
    let b ← b.boolAsNumber.toPrimitive
    return scalarEquals a b

theorem looseEquals_of_kind_eq {a b : Value} (h : a.kind = b.kind) :
    a.looseEquals b = .ok (a.strictEquals b) := by
  simp [looseEquals, h]

end MockApi.Value
