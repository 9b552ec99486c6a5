import MockApi.Condition.Basic
import MockApi.Proofs.Condition.Recognition
import MockApi.Proofs.Guarded.Eval
import MockApi.Proofs.Guarded.Lexer

/-!
# Conditions with guards

Compiling a condition and working it out never comes to a fault. With a guard at every index, lookup
and division and a bound on every loop, the outcome is the one without guards: a result, or an error
that is declared.
-/

namespace MockApi

variable {stack : Stack}

namespace Guarded

/-- A condition with its tree spelled out. -/
structure SpelledCondition where
  /-- The text of the condition. -/
  source : Text
  /-- The tree of the condition. -/
  tree : SpelledExpr
deriving DecidableEq, Repr

/-- The condition of a text. -/
def compile [Stack] (source : Text) : Run ConditionError SpelledCondition := do
  return ⟨source, ← parse (← tokens source)⟩

/-- Declares the errors of a run as errors of a condition. -/
def Stop.failed : Stop Failure → Stop ConditionError
  | declared failure => declared (.failed failure)
  | fault f => fault f

/-- The value of a condition. -/
def evaluate [Stack] (condition : SpelledCondition) (bindings : Bindings) :
    Run ConditionError Value :=
  (evaluateWithin (scope bindings) Stack.evaluating condition.tree).mapError Stop.failed

end Guarded

namespace Condition

open Guarded (declare declare_ok)

/-- A condition with its tree spelled out. -/
def spelled (condition : Condition) : Guarded.SpelledCondition :=
  ⟨condition.source, condition.tree.spelled⟩

theorem guarded_compile_eq (source : Text) :
    Guarded.compile source = declare ((compile source).map spelled) := by
  rw [Guarded.compile, compile, Guarded.tokens_eq]
  cases htokens : Lexer.tokens source with
  | error error => rfl
  | ok tokens =>
    obtain ⟨body, hbody, -⟩ := Lexer.exists_of_tokens htokens
    rw [declare_ok, ok_bind, ok_bind, Guarded.parse_eq ⟨body, _, hbody⟩]
    rcases Parser.parse tokens with _ | tree <;> rfl

theorem guarded_evaluate_eq (condition : Condition) (bindings : Bindings) :
    Guarded.evaluate condition.spelled bindings = declare (condition.evaluate bindings) := by
  rw [Guarded.evaluate, spelled, Guarded.evaluateWithin_eq, evaluate, Expr.evaluate]
  rcases condition.tree.evaluateWithin bindings Stack.evaluating with _ | value <;> rfl

/-- **Conditions fail in the declared ways only.** A text is compiled to a condition, with guards to
the same one, or it is refused with an error, with guards with the same one. A condition that was
compiled has the same outcome with guards and without for all bindings: a value or an error. So no
index is out of range, no lookup misses, nothing is divided by zero and every loop ends. -/
theorem guarded_run (source : Text) :
    (∃ condition, compile source = .ok condition ∧
      Guarded.compile source = .ok condition.spelled ∧
      ∀ bindings, Guarded.evaluate condition.spelled bindings =
        declare (condition.evaluate bindings)) ∨
    ∃ error, compile source = .error error ∧
      Guarded.compile source = .error (.declared error) := by
  have hguarded := @guarded_compile_eq stack source
  cases hcompile : compile source with
  | error error =>
    rw [hcompile] at hguarded
    exact .inr ⟨error, rfl, hguarded⟩
  | ok condition =>
    rw [hcompile] at hguarded
    exact .inl ⟨condition, rfl, hguarded, condition.guarded_evaluate_eq⟩

end Condition

end MockApi
