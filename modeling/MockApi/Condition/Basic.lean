import MockApi.Condition.Eval
import MockApi.Condition.Parser

/-!
# Conditions

A condition is a text that has been parsed. Its value is worked out for given bindings, and testing
it takes the value as a truth value. Two things are told apart on the way: an error of the
condition, which is reported with its source, and a value that cannot be tested, which is a failure
of its own.

A scenario asks no more than whether its condition holds: blank conditions and conditions with
errors do not.
-/

namespace MockApi

/-- A parsed condition. -/
structure Condition where
  /-- The text of the condition. -/
  source : Text
  /-- The tree of the condition. -/
  tree : Expr
deriving DecidableEq, Repr

/-- Why a condition could not be tested. -/
inductive TestFailure
  /-- The condition has no value. -/
  | noValue (error : ConditionError)
  /-- The value of the condition is no truth value. -/
  | noTruth (failure : Failure)
deriving DecidableEq, Repr

namespace Condition

variable [Stack]

/-- The condition of a text. -/
def compile (source : Text) : Except ConditionError Condition := do
  return ⟨source, ← Parser.parse (← Lexer.tokens source)⟩

/-- The value of a condition. -/
def evaluate (condition : Condition) (bindings : Bindings) : Except ConditionError Value :=
  (condition.tree.evaluate bindings).mapError .failed

/-- Whether the value of a condition counts as true. -/
def test (condition : Condition) (bindings : Bindings) : Except TestFailure Bool := do
  let value ← (condition.evaluate bindings).mapError .noValue
  value.truthy.mapError .noTruth

/-- Whether the text of a condition is white space only. -/
def isBlank (source : Text) : Bool := source.trim.isEmpty

/-- Whether the condition of a text holds. Blank texts, texts that do not parse and conditions
without a value do not hold; a value that cannot be tested is a failure. -/
def holds (source : Text) (bindings : Bindings) : Except Failure Bool :=
  if isBlank source then .ok false
  else match compile source.trim with
    | .error _ => .ok false
    | .ok condition => match condition.test bindings with
      | .ok b => .ok b
      | .error (.noValue _) => .ok false
      | .error (.noTruth failure) => .error failure

/-- Whether a condition given as a value holds; only texts are conditions. -/
def holdsValue (condition : Value) (bindings : Bindings) : Except Failure Bool :=
  match condition with
  | .text source => holds source bindings
  | _ => .ok false

theorem holds_of_isBlank {source : Text} (h : isBlank source = true) (bindings : Bindings) :
    holds source bindings = .ok false := by
  simp [holds, h]

end Condition

end MockApi
