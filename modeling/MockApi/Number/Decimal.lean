import MockApi.Number.Double

/-!
# Decimal digits of doubles

Reading takes a coefficient and a power of ten to the nearest double. Writing goes the other way and
finds the decimal with the fewest digits that reads back as the same double: the interval of reals
that round to it meets some multiples of a power of ten, and the coarsest power with a multiple in
the interval decides. Of two multiples the nearer is taken, and of two equally near the even one.
-/

namespace MockApi.Double

/-- The double nearest to `coefficient * 10 ^ exponent`. Decimals far outside the range of doubles
are decided by their magnitude alone, so that no huge power is computed. -/
def ofDecimal (negative : Bool) (coefficient : Nat) (exponent : Int) : Double :=
  let magnitude : Int := ((Nat.toDigits 10 coefficient).length : Int) + exponent
  if coefficient = 0 then zeroOf negative
  else if 310 < magnitude then .infinite negative
  else if magnitude < -330 then zeroOf negative
  else ofRatio negative (coefficient * tenTo exponent.toNat) (tenTo (-exponent).toNat)

/-- A positive decimal: a coefficient times a power of ten. -/
structure Decimal where
  /-- The digits of the decimal, read as one number. -/
  coefficient : Nat
  /-- The power of ten that the coefficient counts. -/
  exponent : Int
deriving DecidableEq, Repr

/-- The reals that round to `m * 2 ^ e`, in units of `2 ^ (e - 2)`. Below a power of two the numbers
lie twice as close as above it. -/
def roundingInterval (m : Nat) (e : Int) : Nat × Nat :=
  (if m = twoTo 52 ∧ e ≠ -1074 then 4 * m - 1 else 4 * m - 2, 4 * m + 2)

/-- The multiple of `10 ^ k` that is nearest to `m * 2 ^ e` among those that round to it. -/
def multipleIn? (m : Nat) (e k : Int) : Option Nat :=
  let (low, high) := roundingInterval m e
  let (a, b) := (twoTo (e - 2).toNat * tenTo (-k).toNat, twoTo (2 - e).toNat * tenTo k.toNat)
  let inside (c : Nat) : Bool :=
    if m % 2 = 0 then low * a ≤ c * b && c * b ≤ high * a else low * a < c * b && c * b < high * a
  let value := 4 * m * a
  let c := value / b
  match inside c, inside (c + 1) with
  | true, true =>
    let below := value - c * b
    let above := (c + 1) * b - value
    some (if below < above then c else if above < below then c + 1 else c + c % 2)
  | true, false => some c
  | false, true => some (c + 1)
  | false, false => none

/-- The coarsest decimal that rounds to `m * 2 ^ e`, on the grids `10 ^ (steps - 1 - below)` down to
`10 ^ -below`. -/
def coarsest (m : Nat) (e : Int) (below : Nat) : Nat → Decimal
  | 0 => ⟨0, 0⟩
  | steps + 1 =>
    let k : Int := (steps : Int) - below
    match multipleIn? m e k with
    | some c => ⟨c, k⟩
    | none => coarsest m e below steps

/-- The shortest decimal that reads back as the double `m * 2 ^ e`, for positive `m`. -/
def shortest (m : Nat) (e : Int) : Decimal := coarsest m e 330 640

end MockApi.Double
