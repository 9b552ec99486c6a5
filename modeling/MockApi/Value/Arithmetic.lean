import MockApi.Value.Coercion

/-!
# Arithmetic on values

Addition joins texts as soon as one operand is a text or a container, and adds numbers otherwise.
The other operations always work on numbers. Division and remainder by zero are decided before any
division happens: they give NaN or an infinity, whose sign is that of the operands.
-/

namespace MockApi

/-- The operations that always work on numbers. -/
inductive ArithmeticOp
  | subtract
  | multiply
  | divide
  | remainder
deriving DecidableEq, Repr

namespace ArithmeticOp

/-- The symbol of an operation. -/
def symbol : ArithmeticOp → Text
  | subtract => "-"
  | multiply => "*"
  | divide => "/"
  | remainder => "%"

/-- The operation of a symbol. -/
def ofSymbol? (symbol : Text) : Option ArithmeticOp :=
  [subtract, multiply, divide, remainder].find? (·.symbol = symbol)

theorem ofSymbol?_symbol (op : ArithmeticOp) : ofSymbol? op.symbol = some op := by
  cases op <;> decide

end ArithmeticOp

namespace Number

/-- Whether the sign of a number is negative; integers have no negative zero. -/
def isNegative : Number → Bool
  | .int n => n < 0
  | .double x => x.isNegative

/-- Whether the number is an infinity. -/
def isInfinite : Number → Bool
  | .int _ => false
  | .double x => x.isInfinite

/-- The quotient, where dividing by zero gives NaN or an infinity. -/
def quotient (x y : Number) : Except Failure Number :=
  if y.isZero then
    .ok (if x.isZero then nan else .double (.infinite (x.isNegative != y.isNegative)))
  else div x y

/-- The remainder, where dividing by zero or dividing an infinity gives NaN and dividing by an
infinity changes nothing. -/
def remainder (x y : Number) : Except Failure Number :=
  if y.isZero || x.isInfinite then .ok nan
  else if y.isInfinite then .ok x
  else rem x y

/-- Applies an operation to two numbers that are not NaN. -/
def apply : ArithmeticOp → Number → Number → Except Failure Number
  | .subtract => sub
  | .multiply => mul
  | .divide => quotient
  | .remainder => remainder

end Number

namespace Value

variable [Stack]

/-- The sum of two values, or their texts one after the other. -/
def add (a b : Value) : Except Failure Value := do
  let a ← a.toPrimitive
  let b ← b.toPrimitive
  match a, b with
  | text s, b => return .text (s ++ (← b.toText))
  | a, text t => return .text ((← a.toText) ++ t)
  | a, b => return .number (← Number.add (← a.toNumber) (← b.toNumber))

/-- Works out an operation on the numbers that two values count as, if neither is NaN. -/
def onNumbers (op : Number → Number → Except Failure Number) (a b : Value) :
    Except Failure Number := do
  let x ← a.toNumber
  let y ← b.toNumber
  if ← x.testNaN then return .nan
  if ← y.testNaN then return .nan
  op x y

/-- The result of an operation on two values. -/
def arithmetic (op : ArithmeticOp) (a b : Value) : Except Failure Number :=
  onNumbers (Number.apply op) a b

/-- The result of the operation of a symbol on two values. The symbol is looked up only if neither
value counts as NaN. -/
def arithmeticBySymbol (symbol : Text) (a b : Value) : Except Failure Number :=
  onNumbers (fun x y ↦ match ArithmeticOp.ofSymbol? symbol with
    | some op => Number.apply op x y
    | none => .error (.unknownArithmetic symbol)) a b

theorem arithmeticBySymbol_symbol (op : ArithmeticOp) (a b : Value) :
    arithmeticBySymbol op.symbol a b = arithmetic op a b := by
  simp only [arithmeticBySymbol, arithmetic, ArithmeticOp.ofSymbol?_symbol]

end Value

end MockApi
