/-!
# Double-precision numbers

Binary floating-point numbers of 64 bits, held as sign, significand and exponent rather than as
bits. A finite number is a significand below `2 ^ 53` times a power of two; every operation computes
the exact result over the integers and rounds it once, to the nearest number with ties going to the
even significand. So a statement about an operation is a statement about integers.

The rounding function `Double.ofRatio` builds only significands of 53 bits, or exponents of `-1074`
with fewer bits, and all finite numbers come from it.
-/

namespace MockApi

/-- A binary floating-point number of 64 bits. -/
inductive Double
  /-- Not a number. -/
  | nan
  /-- Infinity of the given sign. -/
  | infinite (negative : Bool)
  /-- The significand times two to the exponent, negated if `negative`. -/
  | finite (negative : Bool) (significand : Nat) (exponent : Int)
deriving DecidableEq, Repr

namespace Double

/-- Zero of the given sign. -/
def zeroOf (negative : Bool) : Double := .finite negative 0 (-1074)

/-- A power of two. -/
def twoTo (n : Nat) : Nat := Nat.pow 2 n

/-- A power of ten. -/
def tenTo (n : Nat) : Nat := Nat.pow 10 n

/-! ## Rounding -/

/-- The natural number nearest to `num / den`; a tie goes to the even neighbour. -/
def roundDiv (num den : Nat) : Nat :=
  let q := num / den
  let r := num % den
  if 2 * r < den then q else if den < 2 * r then q + 1 else q + q % 2

/-- `num / den` scaled by `2 ^ -e`, as numerator and denominator. -/
def scaleRatio (num den : Nat) (e : Int) : Nat × Nat :=
  (num * twoTo (-e).toNat, den * twoTo e.toNat)

/-- The exponent of the greatest power of two that is at most `num / den`. -/
def floorLog2 (num den : Nat) : Int :=
  let e : Int := (num.log2 : Int) - (den.log2 : Int)
  let (n, d) := scaleRatio num den e
  if n < d then e - 1 else e

/-- The number nearest to `num / den`, with the given sign. -/
def ofRatio (negative : Bool) (num den : Nat) : Double :=
  if num = 0 then zeroOf negative
  else
    let e := max (floorLog2 num den - 52) (-1074)
    let (n, d) := scaleRatio num den e
    let m := roundDiv n d
    let (m, e) := if m = twoTo 53 then (twoTo 52, e + 1) else (m, e)
    if e > 971 then .infinite negative else .finite negative m e

/-- The number nearest to `m * 2 ^ e`; zero takes the given sign. -/
def ofScaled (negativeZero : Bool) (m e : Int) : Double :=
  if m = 0 then zeroOf negativeZero
  else ofRatio (m < 0) (m.natAbs * twoTo e.toNat) (twoTo (-e).toNat)

/-- The number nearest to an integer, unless that is beyond the finite numbers. -/
def ofInt? (n : Int) : Option Double :=
  match ofRatio (n < 0) n.natAbs 1 with
  | .infinite _ => none
  | x => some x

/-! ## Parts -/

/-- Whether the number is NaN. -/
def isNaN : Double → Bool
  | .nan => true
  | _ => false

/-- Whether the number is an infinity. -/
def isInfinite : Double → Bool
  | .infinite _ => true
  | _ => false

/-- Whether the number is zero of either sign. -/
def isZero : Double → Bool
  | .finite _ m _ => m = 0
  | _ => false

/-- Whether the sign is negative; NaN has none. -/
def isNegative : Double → Bool
  | .nan => false
  | .infinite negative => negative
  | .finite negative _ _ => negative

/-- The significand with its sign. -/
def signed (negative : Bool) (m : Nat) : Int := if negative then -(m : Int) else m

/-- The integer that the number equals, if it is one. -/
def toInt? : Double → Option Int
  | .finite negative m e =>
    if 0 ≤ e then some (signed negative (m * twoTo e.toNat))
    else if m % twoTo (-e).toNat = 0 then some (signed negative (m / twoTo (-e).toNat))
    else none
  | _ => none

/-- The integer part of a finite number, rounded towards zero. -/
def truncate? : Double → Option Int
  | .finite negative m e =>
    if 0 ≤ e then some (signed negative (m * twoTo e.toNat))
    else some (signed negative (m / twoTo (-e).toNat))
  | _ => none

/-! ## Arithmetic -/

/-- The number with the opposite sign. -/
def neg : Double → Double
  | .nan => .nan
  | .infinite negative => .infinite !negative
  | .finite negative m e => .finite (!negative) m e

/-- The rounded sum. -/
def add : Double → Double → Double
  | .nan, _ | _, .nan => .nan
  | .infinite a, .infinite b => if a = b then .infinite a else .nan
  | .infinite a, _ => .infinite a
  | _, .infinite b => .infinite b
  | .finite s₁ m₁ e₁, .finite s₂ m₂ e₂ =>
    let e := min e₁ e₂
    ofScaled (s₁ && s₂)
      (signed s₁ (m₁ * twoTo (e₁ - e).toNat) + signed s₂ (m₂ * twoTo (e₂ - e).toNat)) e

/-- The rounded difference. -/
def sub (x y : Double) : Double := add x (neg y)

/-- The rounded product. -/
def mul : Double → Double → Double
  | .nan, _ | _, .nan => .nan
  | .infinite a, y => if y.isZero then .nan else .infinite (a != y.isNegative)
  | x, .infinite b => if x.isZero then .nan else .infinite (x.isNegative != b)
  | .finite s₁ m₁ e₁, .finite s₂ m₂ e₂ =>
    ofScaled (s₁ != s₂) (signed (s₁ != s₂) (m₁ * m₂)) (e₁ + e₂)

/-- The rounded quotient; division by zero gives NaN or an infinity. -/
def div : Double → Double → Double
  | .nan, _ | _, .nan => .nan
  | .infinite _, .infinite _ => .nan
  | .infinite a, y => .infinite (a != y.isNegative)
  | x, .infinite b => zeroOf (x.isNegative != b)
  | .finite s₁ m₁ e₁, .finite s₂ m₂ e₂ =>
    if m₂ = 0 then if m₁ = 0 then .nan else .infinite (s₁ != s₂)
    else ofRatio (s₁ != s₂) (m₁ * twoTo (e₁ - e₂).toNat) (m₂ * twoTo (e₂ - e₁).toNat)

/-- The remainder of the quotient rounded towards zero; it has the sign of the dividend. -/
def rem : Double → Double → Double
  | .nan, _ | _, .nan => .nan
  | .infinite _, _ => .nan
  | x, .infinite _ => x
  | .finite s₁ m₁ e₁, .finite _ m₂ e₂ =>
    if m₂ = 0 then .nan
    else
      let e := min e₁ e₂
      let r := m₁ * twoTo (e₁ - e).toNat % (m₂ * twoTo (e₂ - e).toNat)
      ofScaled s₁ (signed s₁ r) e

/-! ## Order -/

/-- The order of `m₁ * 2 ^ e₁` and `m₂ * 2 ^ e₂`. -/
def compareScaled (m₁ e₁ m₂ e₂ : Int) : Ordering :=
  let e := min e₁ e₂
  compare (m₁ * twoTo (e₁ - e).toNat) (m₂ * twoTo (e₂ - e).toNat)

/-- The order of two numbers; NaN has no order. -/
def compare? : Double → Double → Option Ordering
  | .nan, _ | _, .nan => none
  | .infinite a, .infinite b => some (if a = b then .eq else if a then .lt else .gt)
  | .infinite a, _ => some (if a then .lt else .gt)
  | _, .infinite b => some (if b then .gt else .lt)
  | .finite s₁ m₁ e₁, .finite s₂ m₂ e₂ => some (compareScaled (signed s₁ m₁) e₁ (signed s₂ m₂) e₂)

/-- The order of a number and an integer, found exactly. -/
def compareInt? : Double → Int → Option Ordering
  | .nan, _ => none
  | .infinite a, _ => some (if a then .lt else .gt)
  | .finite s m e, n => some (compareScaled (signed s m) e n 0)

/-! ## Decimal places -/

/-- The number nearest to the decimal fraction nearest to this number with the given places, where
ties go to the even last digit. -/
def roundPlaces (places : Nat) : Double → Double
  | .finite s m e =>
    let scaled := roundDiv (m * tenTo places * twoTo e.toNat) (twoTo (-e).toNat)
    ofRatio s scaled (tenTo places)
  | x => x

/-! ## The first laws -/

@[simp] theorem isNaN_iff {x : Double} : x.isNaN = true ↔ x = .nan := by
  cases x <;> simp [isNaN]

theorem compareScaled_self (m e : Int) : compareScaled m e m e = .eq := by
  simp [compareScaled]

theorem compare?_self {x : Double} (h : x ≠ .nan) : x.compare? x = some .eq := by
  cases x <;> simp_all [compare?, compareScaled_self]

end Double

end MockApi
