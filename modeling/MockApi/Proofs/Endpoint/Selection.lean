import MockApi.Endpoint.Selection
import MockApi.Proofs.Number.Range
import MockApi.Proofs.Outcome

/-!
# Which response is selected

Truth of values is total but for one thing: an integer beyond the doubles cannot be tested, although
it counts as true like any other number but zero and NaN. A condition that does not parse or has no
value does not hold, so it lets the scenarios behind it have their turn; a condition whose value
cannot be tested ends the selection.

The selection is that of the first scenario whose condition has a true value, except when that value
is such an integer.
-/

namespace MockApi

variable {stack : Stack}

/-! ## Truth -/

namespace Value

/-- Whether a value counts as true, numbers of any size included. -/
def isTruthy : Value → Bool
  | null | undefined => false
  | bool b => b
  | number (.int n) => n ≠ 0
  | number (.double x) => !x.isZero && !x.isNaN
  | text t => !t.isEmpty
  | list .. | object .. => true

/-- Whether a value is an integer beyond the doubles. -/
def isHuge : Value → Bool
  | number (.int n) => Double.limit ≤ n.natAbs
  | _ => false

theorem isHuge_int {n : Int} : (int n).isHuge = true ↔ Double.limit ≤ n.natAbs := by
  simp [isHuge, int]

/-- Huge integers count as true. -/
theorem isTruthy_of_isHuge {value : Value} (h : value.isHuge = true) : value.isTruthy = true := by
  cases value with
  | number x =>
    cases x with
    | int n =>
      have hlarge : Double.limit ≤ n.natAbs := by simpa [isHuge] using h
      have hpos := Nat.lt_of_lt_of_le Double.limit_pos hlarge
      simpa [isTruthy] using Int.natAbs_pos.mp hpos
    | double x => cases h
  | _ => cases h

/-- Testing a value gives its truth, but fails on huge integers. -/
theorem truthy_eq (value : Value) :
    value.truthy = if value.isHuge then .error .integerTooLarge else .ok value.isTruthy := by
  cases value with
  | number x =>
    cases x with
    | int n =>
      -- zero is told without a double; every other integer is asked whether it is NaN
      by_cases hlarge : Double.limit ≤ n.natAbs
      · have hne := Int.natAbs_pos.mp (Nat.lt_of_lt_of_le Double.limit_pos hlarge)
        simp [truthy, Number.isZero, isHuge, Number.testNaN_int, hlarge, hne, Except.map]
      · by_cases hzero : n = 0
        · simp [truthy, Number.isZero, isHuge, isTruthy, hzero, Double.limit_pos.ne']
        · simp [truthy, Number.isZero, isHuge, isTruthy, Number.testNaN_int, hlarge, hzero,
            Except.map]
    | double x =>
      cases hzero : x.isZero with
      | true => simp [truthy, Number.isZero, isHuge, isTruthy, hzero]
      | false =>
        simp [truthy, Number.isZero, isHuge, isTruthy, hzero, Number.testNaN, Number.toDouble,
          Except.map]
  | null | undefined | bool | text | list | object => rfl

end Value

/-! ## Conditions -/

namespace Condition

/-- The value of the condition of a text: none if the text is blank, does not parse, or cannot be
worked out. -/
def value? [Stack] (source : Text) (bindings : Bindings) : Option Value :=
  if isBlank source then none
  else match compile source.trim with
    | .error _ => none
    | .ok condition => (condition.evaluate bindings).toOption

/-- Whether a condition holds is the truth of its value; without a value it does not hold. -/
theorem holds_eq (source : Text) (bindings : Bindings) :
    holds source bindings =
      match value? source bindings with
      | none => .ok false
      | some value => if value.isHuge then .error .integerTooLarge else .ok value.isTruthy := by
  unfold holds value?
  by_cases hblank : isBlank source = true
  · rw [if_pos hblank, if_pos hblank]
  rw [if_neg hblank, if_neg hblank]
  cases compile source.trim with
  | error error => rfl
  | ok condition =>
    cases hvalue : condition.evaluate bindings with
    | error error => simp [test, hvalue, Except.mapError, Except.toOption]
    | ok value =>
      by_cases hhuge : value.isHuge = true
      · simp [test, hvalue, Except.mapError, Except.toOption, Value.truthy_eq, hhuge]
      · simp [test, hvalue, Except.mapError, Except.toOption, Value.truthy_eq, hhuge]

end Condition

/-! ## Scenarios -/

namespace Scenario

/-- Whether the condition of a scenario has a true value. -/
def isTruthy [Stack] (bindings : Bindings) (scenario : Scenario) : Bool :=
  (Condition.value? scenario.condition bindings).any Value.isTruthy

/-- Whether the value of the condition of a scenario is a huge integer. -/
def isHuge [Stack] (bindings : Bindings) (scenario : Scenario) : Bool :=
  (Condition.value? scenario.condition bindings).any Value.isHuge

theorem holds_condition (bindings : Bindings) (scenario : Scenario) :
    Condition.holds scenario.condition bindings =
      if scenario.isHuge bindings then .error .integerTooLarge
      else .ok (scenario.isTruthy bindings) := by
  rw [Condition.holds_eq, isHuge, isTruthy]
  cases Condition.value? scenario.condition bindings with
  | none => rfl
  | some value => rfl

theorem isTruthy_of_isHuge {bindings : Bindings} {scenario : Scenario}
    (h : scenario.isHuge bindings = true) : scenario.isTruthy bindings = true := by
  obtain ⟨value, hvalue, hhuge⟩ := (Option.any_eq_true ..).mp h
  exact (Option.any_eq_true ..).mpr ⟨value, hvalue, Value.isTruthy_of_isHuge hhuge⟩

end Scenario

namespace Endpoint

/-- The search stops at the first scenario with a true value and fails only there. -/
theorem firstHolding_eq (bindings : Bindings) (scenarios : List Scenario) :
    firstHolding bindings scenarios =
      match scenarios.find? (Scenario.isTruthy bindings) with
      | none => .ok none
      | some scenario =>
        if scenario.isHuge bindings then .error .integerTooLarge else .ok (some scenario) := by
  induction scenarios with
  | nil => rfl
  | cons scenario scenarios ih =>
    rw [firstHolding, scenario.holds_condition]
    by_cases hhuge : scenario.isHuge bindings = true
    · rw [List.find?_cons_of_pos (Scenario.isTruthy_of_isHuge hhuge)]
      simp [hhuge]
    · by_cases htruthy : scenario.isTruthy bindings = true
      · rw [List.find?_cons_of_pos htruthy]
        simp [hhuge, htruthy]
      · rw [List.find?_cons_of_neg htruthy]
        simp [hhuge, htruthy, ih]

theorem select_eq_find? (endpoint : Endpoint) (context : RequestContext) :
    endpoint.select context =
      match endpoint.scenarios.find? (Scenario.isTruthy context.bindings) with
      | none => .ok ⟨endpoint.response, none⟩
      | some scenario =>
        if scenario.isHuge context.bindings then .error .integerTooLarge
        else .ok ⟨scenario.response, some scenario.name⟩ := by
  rw [select, firstHolding_eq]
  cases endpoint.scenarios.find? (Scenario.isTruthy context.bindings) with
  | none => rfl
  | some scenario =>
    by_cases hhuge : scenario.isHuge context.bindings = true
    · simp [hhuge]
    · simp [hhuge]

/-- **One bad scenario blocks the others only by a huge integer.** A condition that is blank, does
not parse or cannot be worked out does not hold, and any other condition holds if its value is true,
unless that value is a huge integer: then testing it fails. The selection is that of the first
scenario with a true value, or the default if there is none, and it fails if and only if the value
of that scenario is a huge integer. -/
theorem select_eq (endpoint : Endpoint) (context : RequestContext) :
    (∀ source, Condition.holds source context.bindings =
      match Condition.value? source context.bindings with
      | none => .ok false
      | some value => if value.isHuge then .error .integerTooLarge else .ok value.isTruthy) ∧
    endpoint.select context =
      match endpoint.scenarios.find? (Scenario.isTruthy context.bindings) with
      | none => .ok ⟨endpoint.response, none⟩
      | some scenario =>
        if scenario.isHuge context.bindings then .error .integerTooLarge
        else .ok ⟨scenario.response, some scenario.name⟩ := by
  refine ⟨?_, ?_⟩
  · exact fun source ↦ Condition.holds_eq source context.bindings
  · exact select_eq_find? endpoint context

/-- The condition `body` cannot be tested if the body is the least huge integer. -/
theorem holds_body_limit :
    letI : Stack := .usual
    Condition.holds "body" (RequestContext.bindings ⟨.null, .null, .int Double.limit⟩) =
      .error .integerTooLarge := by
  let stack : Stack := .usual
  have hvalue : Condition.value? "body"
      (RequestContext.bindings ⟨.null, .null, .int Double.limit⟩) = some (.int Double.limit) := rfl
  have hhuge : (Value.int Double.limit).isHuge = true :=
    Value.isHuge_int.mpr (Int.natAbs_natCast Double.limit).ge
  simp only [Condition.holds_eq, hvalue, hhuge, if_true]

end Endpoint

end MockApi
