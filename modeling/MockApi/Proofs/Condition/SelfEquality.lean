import MockApi.Proofs.Condition.Levels
import MockApi.Proofs.Value.Writing

/-!
# Every expression equals itself

Equality of containers is that of their identities, and no operator makes a container: whatever list
or object a tree gives is one that the bindings hold, under the identity that it has there. So both
sides of `e === e` come to the same container, whichever way the tree takes, and they are equal;
plain values are equal to themselves for what they are, NaN excepted.

The comparison stands one level above its operands and needs one level more than they do.
-/

namespace MockApi

variable {stack : Stack}

open Value (PartOf)

/-! ## Values and themselves -/

namespace Value

/-- Whether a value is the number that is not one. -/
def isNaN : Value → Bool
  | number (.double x) => x.isNaN
  | _ => false

theorem strictEquals_self (value : Value) : value.strictEquals value = !value.isNaN := by
  match value with
  | null | undefined => rfl
  | bool b => simp [strictEquals, isNaN]
  | text t => simp [strictEquals, isNaN]
  | number (.int n) => exact Number.equals_self (by simp [Number.nan])
  | number (.double .nan) => rfl
  | number (.double (.infinite negative)) => exact Number.equals_self (by simp [Number.nan])
  | number (.double (.finite negative m e)) => exact Number.equals_self (by simp [Number.nan])
  | list identity items | object identity entries =>
    simp [strictEquals, isContainer, identity?, isNaN]

theorem looseEquals_self (value : Value) : value.looseEquals value = .ok !value.isNaN := by
  rw [looseEquals_of_kind_eq rfl, strictEquals_self]

/-! ## Containers come from the bindings -/

theorem mem_of_sequenceProperty {items : List Value} {key : Text} {value : Value}
    (h : sequenceProperty items key = .ok value) (hcontainer : value.isContainer = true) :
    value ∈ items := by
  unfold sequenceProperty at h
  split at h
  · cases h
    cases hcontainer
  · obtain ⟨index?, -, h⟩ := bind_eq_ok_iff.mp h
    match index? with
    | none =>
      cases h
      cases hcontainer
    | some i =>
      obtain rfl := Except.ok.inj h
      cases hitem : items[i]? with
      | none =>
        rw [hitem] at hcontainer
        cases hcontainer
      | some item => exact List.mem_of_getElem? hitem

/-- Only containers have containers as parts. -/
theorem PartOf.isContainer {part value : Value} (h : PartOf part value)
    (hcontainer : part.isContainer = true) : value.isContainer = true := by
  match h with
  | .refl _ => exact hcontainer
  | .item _ _ | .entry _ _ => rfl

/-- A property that is a container is part of its target. -/
theorem partOf_of_property {target key value : Value} (h : target.property key = .ok value)
    (hcontainer : value.isContainer = true) : PartOf value target := by
  obtain ⟨name, -, h⟩ := bind_eq_ok_iff.mp h
  match target with
  | null | undefined => cases h
  | bool _ | number _ =>
    cases h
    cases hcontainer
  | list identity items => exact .item (mem_of_sequenceProperty h hcontainer) (.refl value)
  | text t =>
    -- the items of a text are texts
    obtain ⟨c, -, rfl⟩ := List.mem_map.mp (mem_of_sequenceProperty h hcontainer)
    cases hcontainer
  | object identity entries =>
    obtain rfl := Except.ok.inj h
    cases hentry : Table.get? entries name with
    | none =>
      rw [hentry] at hcontainer
      cases hcontainer
    | some entry => exact .entry (Table.mem_of_get?_eq_some hentry) (.refl entry)

end Value

/-- A value is a plain one, or a container that is part of what a name is bound to. -/
def Bindings.Hold (bindings : Bindings) (value : Value) : Prop :=
  value.isContainer = true → ∃ name, PartOf value (bindings.get name)

/-- Operators on one operand make no containers. -/
theorem UnaryOp.isContainer_of_apply {op : UnaryOp} {a value : Value}
    (h : op.apply a = .ok value) : value.isContainer = false := by
  match op with
  | .not | .negate | .plus =>
    obtain ⟨_, -, rfl⟩ := map_eq_ok_iff.mp h
    rfl

theorem Value.isContainer_of_add {a b value : Value} (h : a.add b = .ok value) :
    value.isContainer = false := by
  obtain ⟨a, -, h⟩ := bind_eq_ok_iff.mp h
  obtain ⟨b, -, h⟩ := bind_eq_ok_iff.mp h
  split at h
  · obtain ⟨t, -, h⟩ := bind_eq_ok_iff.mp h
    cases h
    rfl
  · obtain ⟨s, -, h⟩ := bind_eq_ok_iff.mp h
    cases h
    rfl
  · obtain ⟨x, -, h⟩ := bind_eq_ok_iff.mp h
    obtain ⟨y, -, h⟩ := bind_eq_ok_iff.mp h
    obtain ⟨sum, -, h⟩ := bind_eq_ok_iff.mp h
    cases h
    rfl

/-- Operators on two operands make no containers. -/
theorem BinaryOp.isContainer_of_apply {op : BinaryOp} {a b value : Value}
    (h : op.apply a b = .ok value) : value.isContainer = false := by
  match op with
  | .strictEqual | .strictUnequal =>
    cases h
    rfl
  | .looseEqual | .looseUnequal | .relation _ | .arithmetic _ =>
    obtain ⟨_, -, rfl⟩ := map_eq_ok_iff.mp h
    rfl
  | .add => exact Value.isContainer_of_add h

theorem Literal.isContainer_toValue (l : Literal) : l.toValue.isContainer = false := by
  cases l <;> rfl

namespace Expr

variable {bindings : Bindings}

/-- What a tree gives is a plain value or a container of the bindings. -/
theorem hold_of_evaluateWithin {levels : Nat} {e : Expr} {value : Value}
    (h : e.evaluateWithin bindings levels = .ok value) : bindings.Hold value := by
  induction levels generalizing e value with
  | zero => cases h
  | succ levels ih =>
    match e with
    | literal l =>
      cases h
      exact fun hcontainer ↦ absurd hcontainer (by simp [l.isContainer_toValue])
    | name n =>
      cases h
      exact fun _ ↦ ⟨n, .refl _⟩
    | member target key =>
      obtain ⟨a, ha, h⟩ := bind_eq_ok_iff.mp h
      obtain ⟨b, -, h⟩ := bind_eq_ok_iff.mp h
      intro hcontainer
      have hpart := Value.partOf_of_property h hcontainer
      obtain ⟨name, hname⟩ := ih ha (hpart.isContainer hcontainer)
      exact ⟨name, hpart.trans hname⟩
    | unary op operand =>
      obtain ⟨a, -, h⟩ := bind_eq_ok_iff.mp h
      exact fun hcontainer ↦ absurd hcontainer (by simp [UnaryOp.isContainer_of_apply h])
    | logical op left right =>
      obtain ⟨a, ha, h⟩ := bind_eq_ok_iff.mp h
      obtain ⟨holds, -, h⟩ := bind_eq_ok_iff.mp h
      match op, holds with
      | .and, true | .or, false => exact ih h
      | .and, false | .or, true =>
        cases h
        exact ih ha
    | binary op left right =>
      obtain ⟨a, -, h⟩ := bind_eq_ok_iff.mp h
      obtain ⟨b, -, h⟩ := bind_eq_ok_iff.mp h
      exact fun hcontainer ↦ absurd hcontainer (by simp [BinaryOp.isContainer_of_apply h])

/-- Comparing a tree with itself, one level up, tells whether its value is NaN. -/
theorem evaluateWithin_equal_self {op : BinaryOp} (hop : op = .strictEqual ∨ op = .looseEqual)
    (levels : Nat) (e : Expr) : (binary op e e).evaluateWithin bindings (levels + 1) =
      (e.evaluateWithin bindings levels).map fun value ↦ .bool !value.isNaN := by
  have hself (stack : Stack) (value : Value) :
      op.apply value value = .ok (.bool !value.isNaN) := by
    rcases hop with rfl | rfl
    · rw [BinaryOp.apply, Value.strictEquals_self]
    · rw [BinaryOp.apply, Value.looseEquals_self]
      rfl
  rw [evaluateWithin]
  rcases e.evaluateWithin bindings levels with error | value
  · rfl
  · simp only [ok_bind, hself]
    rfl

/-- **Every expression equals itself.** If a tree has a value, within whatever number of levels,
then comparing the tree with itself, strictly or loosely, gives true within one level more, and
false if the value is NaN. Within the same number of levels it gives this as well, unless the tree
needs all of them; then there is none left for the comparison. A value that is a container is one
that the bindings hold. -/
theorem evaluateWithin_self {levels : Nat} {e : Expr} {value : Value} {op : BinaryOp}
    (h : e.evaluateWithin bindings levels = .ok value)
    (hop : op = .strictEqual ∨ op = .looseEqual) :
    (binary op e e).evaluateWithin bindings (levels + 1) = .ok (.bool !value.isNaN) ∧
    ((binary op e e).evaluateWithin bindings levels = .ok (.bool !value.isNaN) ∨
      e.evaluateWithin bindings (levels - 1) = .error .nestingTooDeep ∧
        (binary op e e).evaluateWithin bindings levels = .error .nestingTooDeep) ∧
    (value.isContainer = true → ∃ name, PartOf value (bindings.get name)) := by
  refine ⟨?_, ?_, hold_of_evaluateWithin h⟩
  · rw [evaluateWithin_equal_self hop, h]
    rfl
  · obtain ⟨k, rfl⟩ : ∃ k, levels = k + 1 := by
      refine Nat.exists_eq_succ_of_ne_zero ?_
      rintro rfl
      cases h
    rw [evaluateWithin_equal_self hop, Nat.add_sub_cancel]
    by_cases hdeep : e.evaluateWithin bindings k = .error .nestingTooDeep
    · right
      rw [hdeep]
      exact ⟨rfl, rfl⟩
    · left
      rw [← settles_evaluateWithin_succ k e hdeep, h]
      rfl

/-- However many levels there are, there is a tree that takes all of them, so that it has a value
and cannot be compared with itself. -/
theorem evaluateWithin_self_too_high :
    ¬∃ (_ : Stack) (levels : Nat), 0 < levels ∧ ∀ (bindings : Bindings) (e : Expr) (value : Value),
      e.evaluateWithin bindings levels = .ok value →
        (binary .strictEqual e e).evaluateWithin bindings levels = .ok (.bool !value.isNaN) := by
  rintro ⟨stack, levels, hlevels, hself⟩
  obtain ⟨count, rfl⟩ : ∃ count, levels = count + 1 := ⟨levels - 1, by omega⟩
  let bindings : Bindings := ⟨.null, .null, .null⟩
  have hvalue : (conjunction count).evaluateWithin bindings (count + 1) = .ok (.bool true) := by
    rw [evaluateWithin_conjunction, if_neg (by omega)]
  have hequal := hself bindings (conjunction count) (.bool true) hvalue
  have hside : (conjunction count).evaluateWithin bindings count = .error .nestingTooDeep := by
    rw [evaluateWithin_conjunction, if_pos (Nat.le_refl _)]
  rw [evaluateWithin_equal_self (.inl rfl), hside] at hequal
  cases hequal

/-- A list that stands in two places is itself, whichever of them it is taken from. -/
theorem evaluateWithin_self_shared :
    letI : Stack := .usual
    let shared : Value := .list 1 [.null]
    let bindings : Bindings :=
      ⟨.object 2 [("a", shared)], .object 3 [], .object 4 [("a", shared), ("b", shared)]⟩
    let e : Expr := .logical .or (.member (.name .query) (.literal (.text "b")))
      (.member (.name .body) (.binary .add (.literal (.text "")) (.literal (.text "b"))))
    e.evaluateWithin bindings 4 = .ok shared ∧
      (binary .strictEqual e e).evaluateWithin bindings 5 = .ok (.bool true) := by
  intro shared bindings e
  have h : @evaluateWithin .usual bindings 4 e = .ok shared := rfl
  exact ⟨h, (evaluateWithin_self h (.inl rfl)).1⟩

end Expr

end MockApi
