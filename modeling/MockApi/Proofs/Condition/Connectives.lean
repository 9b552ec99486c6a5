import MockApi.Condition.Basic
import MockApi.Proofs.Condition.Levels

/-!
# The logic of conditions

A test has three outcomes: the condition holds, it does not, or the test fails. On these the
connectives and the negation act in sequence: a later operand is reached only if the earlier one
does not decide, and a failure that is reached decides everything. So a condition is tested by
testing what stands between its connectives, although the connectives hand on values of any kind and
not truth values: a value that is handed on is tested again and has the outcome that it had.

The connectives take levels of their own. A condition that is nested beyond the limit may fail where
its parts do not, and that is the only way in which it departs from the logic.
-/

namespace MockApi

variable {stack : Stack}

/-- The outcome of a test: whether the condition holds, or none if the test fails. -/
abbrev Verdict := Option Bool

namespace Verdict

/-- The opposite of an outcome; a failure stays one. -/
def not : Verdict → Verdict
  | some b => some !b
  | none => none

/-- Both of two outcomes, the second one reached only if the first one is true. -/
def and : Verdict → Verdict → Verdict
  | some true, v => v
  | some false, _ => some false
  | none, _ => none

/-- One of two outcomes, the second one reached only if the first one is false. -/
def or : Verdict → Verdict → Verdict
  | some true, _ => some true
  | some false, v => v
  | none, _ => none

theorem not_not (v : Verdict) : not (not v) = v := by
  rcases v with _ | _ | _ <;> rfl

theorem not_and (u v : Verdict) : not (and u v) = or (not u) (not v) := by
  rcases u with _ | _ | _ <;> rfl

theorem not_or (u v : Verdict) : not (or u v) = and (not u) (not v) := by
  rcases u with _ | _ | _ <;> rfl

theorem and_assoc (u v w : Verdict) : and (and u v) w = and u (and v w) := by
  rcases u with _ | _ | _ <;> rfl

theorem or_assoc (u v w : Verdict) : or (or u v) w = or u (or v w) := by
  rcases u with _ | _ | _ <;> rfl

end Verdict

/-- What a connective does to outcomes. -/
def LogicalOp.connect : LogicalOp → Verdict → Verdict → Verdict
  | and => Verdict.and
  | or => Verdict.or

theorem LogicalOp.connect_assoc (op : LogicalOp) (u v w : Verdict) :
    op.connect (op.connect u v) w = op.connect u (op.connect v w) := by
  match op with
  | and => exact Verdict.and_assoc u v w
  | or => exact Verdict.or_assoc u v w

namespace Expr

/-- The outcome of a formula. Its atoms are the subtrees that are neither connectives nor negations,
and each of them has an outcome. -/
def judge (atom : Expr → Verdict) : Expr → Verdict
  | unary .not operand => Verdict.not (operand.judge atom)
  | logical op left right => op.connect (left.judge atom) (right.judge atom)
  | e => atom e

/-- The outcome of testing a tree within a number of levels. -/
def verdictWithin [Stack] (bindings : Bindings) (levels : Nat) (e : Expr) : Verdict :=
  (e.evaluateWithin bindings levels >>= Value.truthy).toOption

variable {bindings : Bindings} {levels levels' : Nat}

/-! ## One connective -/

theorem verdictWithin_not (operand : Expr) :
    (unary .not operand).verdictWithin bindings (levels + 1) =
      Verdict.not (operand.verdictWithin bindings levels) := by
  rw [verdictWithin, evaluateWithin, verdictWithin]
  rcases operand.evaluateWithin bindings levels with _ | value
  · rfl
  · simp only [ok_bind, UnaryOp.apply]
    rcases value.truthy with _ | b <;> rfl

theorem verdictWithin_logical (op : LogicalOp) (left right : Expr) :
    (logical op left right).verdictWithin bindings (levels + 1) =
      op.connect (left.verdictWithin bindings levels) (right.verdictWithin bindings levels) := by
  rw [verdictWithin, evaluateWithin, verdictWithin, verdictWithin]
  rcases left.evaluateWithin bindings levels with _ | value
  · cases op <;> rfl
  · rw [ok_bind, ok_bind]
    cases htruthy : value.truthy with
    | error failure => cases op <;> rfl
    | ok b =>
      cases op <;> cases b
      -- the value of the left operand, if it is handed on, is tested once more
      case and.false | or.true =>
        simp only [ok_bind, pure_eq_ok, htruthy]
        rfl
      case and.true | or.false => rfl

/-- If the connective does not run out of levels and its right operand does, then the right operand
is not reached. -/
theorem connect_of_right_tooDeep {op : LogicalOp} {left right : Expr}
    (h : (logical op left right).evaluateWithin bindings (levels + 1) ≠ .error .nestingTooDeep)
    (hright : right.evaluateWithin bindings levels = .error .nestingTooDeep) (u v : Verdict) :
    op.connect (left.verdictWithin bindings levels) u =
      op.connect (left.verdictWithin bindings levels) v := by
  rw [verdictWithin]
  cases hvalue : left.evaluateWithin bindings levels with
  | error failure => cases op <;> rfl
  | ok value =>
    rw [ok_bind]
    cases htruthy : value.truthy with
    | error failure => cases op <;> rfl
    | ok b =>
      rw [evaluateWithin, hvalue, ok_bind, htruthy, ok_bind] at h
      cases op <;> cases b
      case and.false | or.true => rfl
      case and.true | or.false => exact absurd hright h

/-! ## Formulas -/

/-- A test that does not run out of levels has the outcome of the formula, however high the tree
is: the atoms that are reached have not run out of levels either. -/
theorem verdictWithin_eq_judge_of_ne {e : Expr}
    (h : e.evaluateWithin bindings levels ≠ .error .nestingTooDeep) (hle : levels ≤ levels') :
    e.verdictWithin bindings levels = e.judge (verdictWithin bindings levels') := by
  induction e using judge.induct generalizing levels with
  | case1 operand ih =>
    rcases levels with _ | k
    · exact absurd rfl h
    · have hoperand : operand.evaluateWithin bindings k ≠ .error .nestingTooDeep := by
        intro hdeep
        exact h (by rw [evaluateWithin, hdeep]; rfl)
      rw [verdictWithin_not, judge, ih hoperand (Nat.le_of_succ_le hle)]
  | case2 op left right ihl ihr =>
    rcases levels with _ | k
    · exact absurd rfl h
    · have hleft : left.evaluateWithin bindings k ≠ .error .nestingTooDeep := by
        intro hdeep
        exact h (by rw [evaluateWithin, hdeep]; rfl)
      rw [verdictWithin_logical, judge, ← ihl hleft (Nat.le_of_succ_le hle)]
      by_cases hright : right.evaluateWithin bindings k = .error .nestingTooDeep
      · exact connect_of_right_tooDeep h hright _ _
      · rw [ihr hright (Nat.le_of_succ_le hle)]
  | case3 e hnot hlogical =>
    rw [judge.eq_3 _ _ hnot hlogical, verdictWithin, verdictWithin, settles_evaluateWithin hle e h]

/-- Regrouped operands of one connective, with levels enough for both groupings. -/
theorem verdictWithin_assoc {op : LogicalOp} {a b c : Expr}
    (hleft : (logical op (logical op a b) c).evaluateWithin bindings levels
      ≠ .error .nestingTooDeep)
    (hright : (logical op a (logical op b c)).evaluateWithin bindings levels
      ≠ .error .nestingTooDeep) :
    (logical op (logical op a b) c).verdictWithin bindings levels =
      (logical op a (logical op b c)).verdictWithin bindings levels := by
  rw [verdictWithin_eq_judge_of_ne hleft (Nat.le_refl _),
    verdictWithin_eq_judge_of_ne hright (Nat.le_refl _)]
  exact op.connect_assoc _ _ _

/-- Two negations, with levels enough for them. -/
theorem verdictWithin_not_not {e : Expr}
    (h : (unary .not (unary .not e)).evaluateWithin bindings levels ≠ .error .nestingTooDeep) :
    (unary .not (unary .not e)).verdictWithin bindings levels =
      e.verdictWithin bindings levels := by
  match levels with
  | 0 | 1 => exact absurd rfl h
  | k + 2 =>
    have he : e.evaluateWithin bindings k ≠ .error .nestingTooDeep := by
      intro hdeep
      exact h (by rw [evaluateWithin, evaluateWithin, hdeep]; rfl)
    rw [verdictWithin_not, verdictWithin_not, Verdict.not_not, verdictWithin, verdictWithin,
      settles_evaluateWithin (Nat.le_add_right k 2) e he]

/-- A negation that is moved into a connective takes as many levels as before. -/
theorem verdictWithin_not_and (a b : Expr) :
    (unary .not (logical .and a b)).verdictWithin bindings levels =
      (logical .or (unary .not a) (unary .not b)).verdictWithin bindings levels := by
  match levels with
  | 0 | 1 => rfl
  | k + 2 =>
    simp only [verdictWithin_not, verdictWithin_logical]
    exact Verdict.not_and _ _

theorem verdictWithin_not_or (a b : Expr) :
    (unary .not (logical .or a b)).verdictWithin bindings levels =
      (logical .and (unary .not a) (unary .not b)).verdictWithin bindings levels := by
  match levels with
  | 0 | 1 => rfl
  | k + 2 =>
    simp only [verdictWithin_not, verdictWithin_logical]
    exact Verdict.not_or _ _

end Expr

/-! ## Testing a condition -/

namespace Condition

/-- The outcome of testing a condition. -/
def verdict [Stack] (bindings : Bindings) (condition : Condition) : Verdict :=
  (condition.test bindings).toOption

theorem verdict_mk (bindings : Bindings) (source : Text) (e : Expr) :
    verdict bindings ⟨source, e⟩ = e.verdictWithin bindings Stack.evaluating := by
  rw [verdict, test, evaluate, Expr.verdictWithin, Expr.evaluate]
  rcases e.evaluateWithin bindings Stack.evaluating with error | value
  · rfl
  · simp only [mapError_ok, ok_bind]
    rcases value.truthy with error | b <;> rfl

theorem evaluateWithin_ne_of_evaluate_ne {source : Text} {bindings : Bindings} {e : Expr}
    (h : evaluate ⟨source, e⟩ bindings ≠ .error (.failed .nestingTooDeep)) :
    e.evaluateWithin bindings Stack.evaluating ≠ .error .nestingTooDeep := by
  intro hdeep
  exact h (by rw [evaluate, Expr.evaluate, hdeep]; rfl)

/-- **Tests follow the logic of their three outcomes.** A condition that does not run out of levels
has the outcome of its formula over the outcomes of the atoms, each of them a condition by itself. A
negation can be moved into a connective in any case. Operands of one connective can be regrouped,
and two negations dropped, where what is written does not run out of levels. -/
theorem verdict_logic (source : Text) (bindings : Bindings) :
    let outcome (e : Expr) : Verdict := verdict bindings ⟨source, e⟩
    let Fits (e : Expr) : Prop :=
      evaluate ⟨source, e⟩ bindings ≠ .error (.failed .nestingTooDeep)
    (∀ e, Fits e → outcome e = e.judge outcome) ∧
    (∀ a b, outcome (.unary .not (.logical .and a b)) =
      outcome (.logical .or (.unary .not a) (.unary .not b))) ∧
    (∀ a b, outcome (.unary .not (.logical .or a b)) =
      outcome (.logical .and (.unary .not a) (.unary .not b))) ∧
    (∀ op a b c, Fits (.logical op (.logical op a b) c) → Fits (.logical op a (.logical op b c)) →
      outcome (.logical op (.logical op a b) c) = outcome (.logical op a (.logical op b c))) ∧
    ∀ e, Fits (.unary .not (.unary .not e)) →
      outcome (.unary .not (.unary .not e)) = outcome e := by
  intro outcome Fits
  have hwithin : outcome = Expr.verdictWithin bindings Stack.evaluating :=
    funext (verdict_mk bindings source)
  rw [hwithin]
  have hfits {e : Expr} (h : Fits e) :
      e.evaluateWithin bindings Stack.evaluating ≠ .error .nestingTooDeep :=
    evaluateWithin_ne_of_evaluate_ne h
  exact ⟨fun _ h ↦ Expr.verdictWithin_eq_judge_of_ne (hfits h) (Nat.le_refl _),
    Expr.verdictWithin_not_and, Expr.verdictWithin_not_or,
    fun _ _ _ _ hleft hright ↦ Expr.verdictWithin_assoc (hfits hleft) (hfits hright),
    fun _ h ↦ Expr.verdictWithin_not_not (hfits h)⟩

/-- A property of null fails. In front of a disjunction it makes the whole fail, behind an operand
that decides it is not reached; in between it fails in either grouping, and behind two negations. -/
theorem verdict_logic_property_of_null :
    letI : Stack := .usual
    let bindings : Bindings := ⟨.object 1 [], .object 2 [], .null⟩
    let outcome (e : Expr) : Verdict := verdict bindings ⟨"", e⟩
    let fails : Expr := .member (.name .body) (.literal (.text "a"))
    let holds : Expr := .name .path
    outcome fails = none ∧ outcome holds = some true ∧
    outcome (.logical .or fails holds) = none ∧
    outcome (.logical .or holds fails) = some true ∧
    outcome (.logical .or (.logical .or holds fails) fails) =
      outcome (.logical .or holds (.logical .or fails fails)) ∧
    outcome (.unary .not (.unary .not fails)) = none := by
  intro bindings outcome fails holds
  have hfails : outcome fails = none := rfl
  have hholds : outcome holds = some true := rfl
  obtain ⟨hjudge, -, -, hassoc, hnot⟩ := @verdict_logic .usual "" bindings
  have hvalue : @evaluate .usual ⟨"", .logical .or holds fails⟩ bindings = .ok bindings.path := rfl
  have hfront := hjudge (.logical .or fails holds) nofun
  have hbehind := hjudge (.logical .or holds fails) (by simp [hvalue])
  exact ⟨hfails, hholds, hfront.trans rfl, hbehind.trans rfl,
    hassoc .or holds fails fails nofun nofun, (hnot fails nofun).trans hfails⟩

end Condition

namespace Expr

theorem judge_conjunction {atom : Expr → Verdict} (h : atom (literal (.bool true)) = some true)
    (count : Nat) : (conjunction count).judge atom = some true := by
  have hlast : (literal (.bool true)).judge atom = some true := h
  induction count with
  | zero => exact hlast
  | succ count ih =>
    rw [conjunction, judge, ih, hlast]
    rfl

end Expr

namespace Condition

/-- Three thousand trues are true together, but testing them fails: the condition is compiled, and
too high to be worked out. -/
theorem verdict_conjunction_too_high :
    letI : Stack := .usual
    let source : Text :=
      Text.ofString "true" ++ (List.replicate 2999 (Text.ofString "&&true")).flatten
    let bindings : Bindings := ⟨.object 1 [], .object 2 [], .object 3 []⟩
    compile source = .ok ⟨source, Expr.conjunction 2999⟩ ∧
    verdict bindings ⟨source, Expr.conjunction 2999⟩ = none ∧
    (Expr.conjunction 2999).judge (fun e ↦ verdict bindings ⟨source, e⟩) = some true := by
  intro source bindings
  obtain ⟨hprintable, hnesting, -, hprint⟩ := Expr.print_conjunction 2999
  have hgap : ∀ c ∈ ([] : Text), Text.isBlank c = true := by simp
  obtain ⟨-, -, -, hcompile⟩ := @Spells.compile_eq .usual _ _ _ _ (.print hgap hprintable)
  have hlimit : Stack.usual.evaluating ≤ 2999 := by decide
  refine ⟨?_, ?_, Expr.judge_conjunction rfl 2999⟩
  · rwa [hprint, hnesting, if_pos (by decide)] at hcompile
  · rw [verdict_mk]
    unfold Expr.verdictWithin
    rw [Expr.evaluateWithin_conjunction, if_pos hlimit]
    rfl

end Condition

end MockApi
