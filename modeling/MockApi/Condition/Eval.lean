import MockApi.Condition.Expr
import MockApi.Value.Equality
import MockApi.Value.Property

/-!
# Evaluating conditions

A condition tree is worked out from the left, operands before operators. The connectives test their
left operand and give one operand's value back, so the right one is reached only if the left one
does not decide. Whatever fails on the way makes the whole evaluation fail.
-/

namespace MockApi

/-- The values of the bound names. -/
structure Bindings where
  /-- The value of `path`. -/
  path : Value
  /-- The value of `query`. -/
  query : Value
  /-- The value of `body`. -/
  body : Value

namespace Bindings

/-- The value of a bound name. -/
def get (bindings : Bindings) : BoundName → Value
  | .path => bindings.path
  | .query => bindings.query
  | .body => bindings.body

/-- The bindings with an identity of its own for every container. -/
def withIdentities (bindings : Bindings) : Bindings :=
  let (path, next) := bindings.path.withIdentities 1
  let (query, next) := bindings.query.withIdentities next
  ⟨path, query, (bindings.body.withIdentities next).1⟩

end Bindings

variable [Stack]

/-- Applies an operator to the value of its operand. -/
def UnaryOp.apply : UnaryOp → Value → Except Failure Value
  | not, value => value.truthy.map fun b ↦ .bool !b
  | negate, value => value.toNumber.map fun x ↦ .number x.neg
  | plus, value => value.toNumber.map .number

/-- Applies an operator to the values of its operands. -/
def BinaryOp.apply : BinaryOp → Value → Value → Except Failure Value
  | strictEqual, a, b => .ok (.bool (a.strictEquals b))
  | strictUnequal, a, b => .ok (.bool !(a.strictEquals b))
  | looseEqual, a, b => (a.looseEquals b).map .bool
  | looseUnequal, a, b => (a.looseEquals b).map fun e ↦ .bool !e
  | relation r, a, b => (Value.compare r a b).map .bool
  | add, a, b => a.add b
  | arithmetic op, a, b => (Value.arithmetic op a b).map .number

namespace Expr

/-- The value of a tree that is no more than `levels` deep. Operators have for their operands what
is left of the stack below them. -/
def evaluateWithin (bindings : Bindings) : Nat → Expr → Except Failure Value
  | 0, _ => .error .nestingTooDeep
  | _ + 1, literal value => .ok value.toValue
  | _ + 1, name n => .ok (bindings.get n)
  | levels + 1, member target key => do
    let target ← evaluateWithin bindings levels target
    let key ← evaluateWithin bindings levels key
    @Value.property (Stack.under levels) target key
  | levels + 1, unary op operand => do
    @UnaryOp.apply (Stack.under levels) op (← evaluateWithin bindings levels operand)
  | levels + 1, logical op left right => do
    let value ← evaluateWithin bindings levels left
    match op, ← value.truthy with
    | .and, true | .or, false => evaluateWithin bindings levels right
    | .and, false | .or, true => return value
  | levels + 1, binary op left right => do
    let a ← evaluateWithin bindings levels left
    let b ← evaluateWithin bindings levels right
    @BinaryOp.apply (Stack.under levels) op a b

/-- The value of a tree. -/
def evaluate (bindings : Bindings) (e : Expr) : Except Failure Value :=
  e.evaluateWithin bindings Stack.evaluating

end Expr

end MockApi
