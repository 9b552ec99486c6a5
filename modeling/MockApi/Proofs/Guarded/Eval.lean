import MockApi.Condition.Eval
import MockApi.Proofs.Guarded.Parser
import MockApi.Proofs.Number.Range

/-!
# Evaluating with guards

A tree of spellings is worked out with a lookup for every name and every operator, and with a guard
at every index into a list and at every division. The names and operators of a parsed tree are found
by their spellings. Zero divisors are caught before any division: an integer is zero if and only if
the double that it is converted to is, so asking the number is enough.
-/

namespace MockApi

variable {stack : Stack}

/-! ## Divisors -/

namespace Double

/-- A quotient that is one or more is not rounded to zero. -/
theorem roundDiv_ne_zero {num den : Nat} (hden : 0 < den) (hle : den ≤ num) :
    roundDiv num den ≠ 0 := by
  have hq : 0 < num / den := Nat.div_pos hle hden
  simp only [roundDiv]
  split_ifs <;> omega

/-- A natural number other than zero is not rounded to zero. -/
theorem isZero_ofRatio_one {num : Nat} (h : num ≠ 0) (negative : Bool) :
    (ofRatio negative num 1).isZero = false := by
  have hpos := Nat.pos_of_ne_zero h
  have hround : unitSignificand num 1 (unitExponent num 1) ≠ 0 := by
    generalize hexponent : unitExponent num 1 = e
    unfold unitExponent at hexponent
    have hden : 0 < 1 * twoTo e.toNat := by rw [Nat.one_mul]; exact twoTo_pos _
    refine roundDiv_ne_zero hden ?_
    calc 1 * twoTo e.toNat ≤ num := by
          rcases Int.le_total e 0 with hneg | hnonneg
          · rw [Int.toNat_of_nonpos hneg]
            exact hpos
          · rw [Nat.mul_comm]
            exact (le_floorLog2_iff hpos Nat.one_pos _).mp (by omega)
      _ ≤ num * twoTo (-e).toNat := Nat.le_mul_of_pos_right num (twoTo_pos _)
  rw [ofRatio_eq negative h]
  split
  · split <;> rfl
  · split
    · rfl
    · simpa [isZero] using hround

theorem isZero_of_ofInt? {n : Int} {x : Double} (h : ofInt? n = some x) (hn : n ≠ 0) :
    x.isZero = false := by
  unfold ofInt? at h
  split at h
  · cases h
  · obtain rfl := Option.some.inj h
    exact isZero_ofRatio_one (Int.natAbs_ne_zero.mpr hn) _

end Double

/-- A number other than zero is no zero as a double. -/
theorem Number.isZero_of_toDouble {y : Number} {b : Double} (h : y.toDouble = .ok b)
    (hy : y.isZero = false) : b.isZero = false := by
  match y with
  | .double y =>
    obtain rfl := Except.ok.inj h
    exact hy
  | .int n =>
    have hn : n ≠ 0 := by simpa [isZero] using hy
    cases hint : Double.ofInt? n with
    | none => simp [toDouble, hint] at h
    | some x =>
      simp only [toDouble, hint, Except.ok.injEq] at h
      obtain rfl := h
      exact Double.isZero_of_ofInt? hint hn

namespace Guarded

/-! ## Evaluation -/

/-- An operation on doubles, with a guard at the second one. -/
def onDivisor (f : Double → Double → Double) (x y : Number) : Run Failure Number := do
  let a ← declare x.toDouble
  let b ← declare y.toDouble
  if b.isZero then .error (.fault .zeroDivisor) else return .double (f a b)

/-- The quotient, with a guard at the divisor. -/
def divide : Number → Number → Run Failure Number
  | .int m, .int n =>
    if n = 0 then .error (.fault .zeroDivisor) else declare (Number.divInt m n)
  | x, y => onDivisor Double.div x y

/-- The quotient, where dividing by zero gives NaN or an infinity. -/
def quotient (x y : Number) : Run Failure Number :=
  if y.isZero then
    return if x.isZero then Number.nan else .double (.infinite (x.isNegative != y.isNegative))
  else divide x y

/-- The remainder, where dividing by zero or dividing an infinity gives NaN and dividing by an
infinity changes nothing. -/
def remainder (x y : Number) : Run Failure Number :=
  if y.isZero || x.isInfinite then return Number.nan
  else if y.isInfinite then return x
  else onDivisor Double.rem x y

/-- The result of the operation of a spelling on two values. -/
def arithmetic [Stack] (op : Text) (a b : Value) : Run Failure Number := do
  let x ← declare a.toNumber
  let y ← declare b.toNumber
  if ← declare x.testNaN then return Number.nan
  if ← declare y.testNaN then return Number.nan
  if op = "-" then declare (x.sub y)
  else if op = "*" then declare (x.mul y)
  else if op = "/" then quotient x y
  else if op = "%" then remainder x y
  else .error (.fault (.noOperator op))

/-- Whether the relation of a spelling holds between two values. -/
def compare [Stack] (op : Text) (a b : Value) : Run Failure Bool := do
  match ← declare (Value.order? a b) with
  | none => return false
  | some o =>
    match Relation.ofSymbol? op with
    | some relation => return relation.holds o
    | none => .error (.fault (.noOperator op))

/-- Applies the operator of a spelling to the values of its operands. -/
def binary [Stack] (op : Text) (a b : Value) : Run Failure Value :=
  if op = "===" then return .bool (a.strictEquals b)
  else if op = "!==" then return .bool !(a.strictEquals b)
  else if op = "==" then (declare (a.looseEquals b)).map .bool
  else if op = "!=" then (declare (a.looseEquals b)).map fun e ↦ .bool !e
  else if op = "<" ∨ op = "<=" ∨ op = ">" ∨ op = ">=" then (compare op a b).map .bool
  else if op = "+" then declare (a.add b)
  else (arithmetic op a b).map .number

/-- Applies the operator of a spelling to the value of its operand. -/
def unary [Stack] (op : Text) (value : Value) : Run Failure Value :=
  if op = "!" then (declare value.truthy).map fun b ↦ .bool !b
  else if op = "-" then (declare value.toNumber).map fun x ↦ .number x.neg
  else if op = "+" then (declare value.toNumber).map .number
  else .error (.fault (.noOperator op))

/-- What a sequence answers to a key. -/
def sequenceProperty (items : List Value) (key : Text) : Run Failure Value := do
  if key = "length" then return .int items.length
  match ← declare (Value.index? key) with
  | some i => if i < items.length then itemAt items .noItem i else return .undefined
  | none => return .undefined

/-- The property of a value under a key. -/
def property [Stack] (target key : Value) : Run Failure Value := do
  match target with
  | .list _ items => sequenceProperty items (← declare key.toText)
  | .text t => sequenceProperty (t.map fun c ↦ .text [c]) (← declare key.toText)
  | target => declare (target.property key)

/-- The values that names are bound to. -/
abbrev Scope := List (Text × Value)

/-- The scope of a condition. -/
def scope (bindings : Bindings) : Scope :=
  BoundName.all.map fun n ↦ (n.spelling, bindings.get n)

/-- The value that a name is bound to. -/
def Scope.value (scope : Scope) (name : Text) : Run Failure Value :=
  match scope.lookup name with
  | some value => return value
  | none => .error (.fault (.notInScope name))

/-- The value of a tree that is no more than `levels` deep. Operators have for their operands what
is left of the stack below them. -/
def evaluateWithin [Stack] (scope : Scope) : Nat → SpelledExpr → Run Failure Value
  | 0, _ => .error (.declared .nestingTooDeep)
  | _ + 1, .literal value => return value.toValue
  | _ + 1, .name n => scope.value n
  | levels + 1, .member target key => do
    let target ← evaluateWithin scope levels target
    let key ← evaluateWithin scope levels key
    @property (Stack.under levels) target key
  | levels + 1, .unary op operand => do
    @unary (Stack.under levels) op (← evaluateWithin scope levels operand)
  | levels + 1, .logical op left right => do
    let value ← evaluateWithin scope levels left
    let holds ← declare value.truthy
    if op = "&&" then
      if holds then evaluateWithin scope levels right else return value
    else if op = "||" then
      if holds then return value else evaluateWithin scope levels right
    else .error (.fault (.noOperator op))
  | levels + 1, .binary op left right => do
    let a ← evaluateWithin scope levels left
    let b ← evaluateWithin scope levels right
    @binary (Stack.under levels) op a b

/-! ## Operators -/

theorem onDivisor_eq {y : Number} (hy : y.isZero = false) (f : Double → Double → Double)
    (x : Number) : onDivisor f x y = declare (Number.onDoubles f x y) := by
  rw [onDivisor, Number.onDoubles, declare_bind]
  rcases x.toDouble with _ | a
  · rfl
  · cases hb : y.toDouble with
    | error _ => rfl
    | ok b =>
      simp only [declare_ok, ok_bind, Number.isZero_of_toDouble hb hy]
      rfl

theorem quotient_eq (x y : Number) : quotient x y = declare (x.quotient y) := by
  rw [quotient, Number.quotient]
  by_cases hy : y.isZero = true
  · rw [if_pos hy, if_pos hy]
    rfl
  · rw [if_neg hy, if_neg hy]
    rw [Bool.not_eq_true] at hy
    match x, y with
    | .int m, .int n => exact if_neg (by simpa [Number.isZero] using hy)
    | .int m, .double y | .double x, .int m | .double x, .double y => exact onDivisor_eq hy _ _

theorem remainder_eq (x y : Number) : remainder x y = declare (x.remainder y) := by
  rw [remainder, Number.remainder]
  by_cases hy : (y.isZero || x.isInfinite) = true
  · rw [if_pos hy, if_pos hy]
    rfl
  · rw [if_neg hy, if_neg hy]
    by_cases hinfinite : y.isInfinite = true
    · rw [if_pos hinfinite, if_pos hinfinite]
      rfl
    · rw [Bool.not_eq_true, Bool.or_eq_false_iff] at hy
      rw [if_neg hinfinite, if_neg hinfinite, Number.rem, onDivisor_eq hy.1]

/-- The guarded operation of a symbol, as it is reached. -/
theorem arithmetic_eq (op : ArithmeticOp) (a b : Value) :
    arithmetic op.symbol a b = declare (Value.arithmetic op a b) := by
  rw [arithmetic, Value.arithmetic, Value.onNumbers]
  rcases a.toNumber with _ | x
  · rfl
  rcases b.toNumber with _ | y
  · rfl
  simp only [declare_ok, ok_bind]
  rcases x.testNaN with _ | _ | _
  · rfl
  · rcases y.testNaN with _ | _ | _
    · rfl
    · cases op with
      | subtract | multiply => rfl
      | divide => exact quotient_eq x y
      | remainder => exact remainder_eq x y
    · rfl
  · rfl

theorem compare_eq (r : Relation) (a b : Value) :
    compare r.symbol a b = declare (Value.compare r a b) := by
  rw [compare, Value.compare, r.ofSymbol?_symbol]
  rcases Value.order? a b with _ | _ | o <;> rfl

theorem binary_eq (op : BinaryOp) (a b : Value) :
    binary (Operator.binary op).symbol.spelling a b = declare (op.apply a b) := by
  match op with
  | .strictEqual | .strictUnequal => rfl
  | .looseEqual | .looseUnequal =>
    rw [BinaryOp.apply, declare_map]
    rfl
  | .add => rfl
  | .relation r =>
    rw [BinaryOp.apply, declare_map, ← compare_eq]
    match r with
    | .less | .lessEqual | .greater | .greaterEqual => rfl
  | .arithmetic op =>
    rw [BinaryOp.apply, declare_map, ← arithmetic_eq]
    match op with
    | .subtract | .multiply | .divide | .remainder => rfl

theorem unary_eq (op : UnaryOp) (value : Value) :
    unary op.symbol.spelling value = declare (op.apply value) := by
  match op with
  | .not | .negate | .plus =>
    rw [UnaryOp.apply, declare_map]
    rfl

/-! ## Properties -/

theorem sequenceProperty_eq (items : List Value) (key : Text) :
    sequenceProperty items key = declare (Value.sequenceProperty items key) := by
  rw [sequenceProperty, Value.sequenceProperty]
  by_cases hkey : key = "length"
  · rw [if_pos hkey, if_pos hkey]
    rfl
  · rw [if_neg hkey, if_neg hkey]
    rcases Value.index? key with _ | _ | i
    · rfl
    · rfl
    · by_cases hi : i < items.length
      · have hitem : items[i]? = some items[i] := List.getElem?_eq_getElem hi
        simp only [declare_ok, ok_bind, if_pos hi, itemAt, hitem]
        rfl
      · have hitem : items[i]? = none := List.getElem?_eq_none (Nat.not_lt.mp hi)
        simp only [declare_ok, ok_bind, if_neg hi, hitem]
        rfl

theorem property_eq (target key : Value) : property target key = declare (target.property key) := by
  match target with
  | .list identity items | .text t =>
    rw [property, Value.property, declare_bind]
    simp only [sequenceProperty_eq]
  | .null | .undefined | .bool _ | .number _ | .object _ _ => rfl

/-! ## Trees -/

/-- The names of conditions are in scope. -/
theorem value_scope (bindings : Bindings) (n : BoundName) :
    (scope bindings).value n.spelling = .ok (bindings.get n) := by
  cases n <;> rfl

/-- **Evaluation comes to no fault.** -/
theorem evaluateWithin_eq (bindings : Bindings) (levels : Nat) (e : Expr) :
    evaluateWithin (scope bindings) levels e.spelled =
      declare (e.evaluateWithin bindings levels) := by
  induction levels generalizing e with
  | zero => cases e <;> rfl
  | succ levels ih =>
    match e with
    | .literal value => rfl
    | .name n => exact value_scope bindings n
    | .member target key =>
      rw [Expr.spelled, evaluateWithin, Expr.evaluateWithin, ih, ih]
      simp only [declare_bind, property_eq]
    | .unary op operand =>
      rw [Expr.spelled, evaluateWithin, Expr.evaluateWithin, ih]
      simp only [declare_bind, unary_eq]
    | .logical op left right =>
      rw [Expr.spelled, evaluateWithin, Expr.evaluateWithin, ih]
      rcases left.evaluateWithin bindings levels with _ | value
      · rfl
      · simp only [declare_ok, ok_bind]
        rcases value.truthy with _ | holds
        · rfl
        · match op, holds with
          | .and, true | .or, false => exact ih right
          | .and, false | .or, true => rfl
    | .binary op left right =>
      rw [Expr.spelled, evaluateWithin, Expr.evaluateWithin, ih, ih]
      simp only [declare_bind, binary_eq]

end Guarded

end MockApi
