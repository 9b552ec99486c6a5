import MockApi.Failure
import MockApi.Number.Double

/-!
# Numbers

A number is an exact integer of any size or a double. Sums, differences and products of two integers
stay exact; every other operation works on doubles, and an integer beyond the finite doubles fails
there. Comparison never converts: it is exact between integers and doubles too.
-/

namespace MockApi

/-- An exact integer or a double. -/
inductive Number
  /-- An exact integer. -/
  | int (n : Int)
  /-- A double. -/
  | double (x : Double)
deriving DecidableEq, Repr

namespace Number

/-- The number that is not one. -/
def nan : Number := .double .nan

/-- The number as a double. -/
def toDouble : Number → Except Failure Double
  | .int n => match Double.ofInt? n with
    | some x => .ok x
    | none => .error .integerTooLarge
  | .double x => .ok x

/-- Whether a number is NaN. The question takes a double, so a huge integer has no answer. -/
def testNaN (x : Number) : Except Failure Bool := do
  return (← x.toDouble).isNaN

/-- Whether the number is zero. -/
def isZero : Number → Bool
  | .int n => n = 0
  | .double x => x.isZero

/-- The exact order of two numbers; NaN has no order. -/
def compare? : Number → Number → Option Ordering
  | .int m, .int n => some (compare m n)
  | .int m, .double y => (y.compareInt? m).map Ordering.swap
  | .double x, .int n => x.compareInt? n
  | .double x, .double y => x.compare? y

/-- Whether two numbers are equal; NaN equals nothing. -/
def equals (x y : Number) : Bool := x.compare? y = some .eq

/-- The number with the opposite sign. -/
def neg : Number → Number
  | .int n => .int (-n)
  | .double x => .double x.neg

/-- Applies an operation on doubles. -/
def onDoubles (f : Double → Double → Double) (x y : Number) : Except Failure Number := do
  return .double (f (← x.toDouble) (← y.toDouble))

/-- The sum. -/
def add : Number → Number → Except Failure Number
  | .int m, .int n => .ok (.int (m + n))
  | x, y => onDoubles Double.add x y

/-- The difference. -/
def sub : Number → Number → Except Failure Number
  | .int m, .int n => .ok (.int (m - n))
  | x, y => onDoubles Double.sub x y

/-- The product. -/
def mul : Number → Number → Except Failure Number
  | .int m, .int n => .ok (.int (m * n))
  | x, y => onDoubles Double.mul x y

/-- The quotient of integers is the double nearest to the exact quotient. -/
def divInt (m n : Int) : Except Failure Number :=
  match Double.ofRatio ((m < 0) != (n < 0)) m.natAbs n.natAbs with
  | .infinite _ => .error .integerTooLarge
  | x => .ok (.double x)

/-- The quotient by a number that is not zero. -/
def div : Number → Number → Except Failure Number
  | .int m, .int n => divInt m n
  | x, y => onDoubles Double.div x y

/-- The remainder by a number that is not zero. -/
def rem (x y : Number) : Except Failure Number := onDoubles Double.rem x y

/-! ## The first laws -/

theorem equals_self {x : Number} (h : x ≠ nan) : x.equals x = true := by
  cases x with
  | int n => simp [equals, compare?]
  | double x =>
    have hx : x ≠ .nan := fun hx ↦ h (by rw [hx]; rfl)
    simp [equals, compare?, Double.compare?_self hx]

end Number

end MockApi
