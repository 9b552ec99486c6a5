import MockApi.Number.Basic
import MockApi.Number.Decimal

/-!
# Number texts

A double is written with the shortest decimal that reads back, positionally while the exponent of
the leading digit is between -4 and 15 and with an exponent otherwise. Several notations share this
layout and differ in a few decisions, collected in a record: the names of NaN and infinity, the
least number of exponent digits, and whether whole numbers below `10 ^ 21` are written as integers.

Integers are written in full, up to the limit on decimal digits.
-/

namespace MockApi

/-- An integer in decimal digits, up to the limit on their number. -/
def integerText (n : Int) : Except Failure Text :=
  if (Nat.toDigits 10 n.natAbs).length ≤ decimalDigitLimit then .ok (Text.ofInt n)
  else .error .integerTooLong

/-- The decisions in which notations for doubles differ. -/
structure DoubleNotation where
  /-- The name of NaN. -/
  nanName : Text
  /-- The name of positive infinity. -/
  infinityName : Text
  /-- The least number of digits of an exponent. -/
  exponentDigits : Nat
  /-- Whether whole numbers below `10 ^ 21` are written as integers. -/
  wholeAsInteger : Bool

namespace DoubleNotation

/-- The notation of numeric literals: a point or an exponent shows that the number is a double, and
an exponent has two digits at least. -/
def literal : DoubleNotation := ⟨"nan", "inf", 2, false⟩

/-- The notation of JSON documents, which is that of literals but for the names. -/
def json : DoubleNotation := ⟨"NaN", "Infinity", 2, false⟩

/-- The notation of substituted values: whole numbers look like integers, and exponents have no
zeros in front. -/
def display : DoubleNotation := ⟨"NaN", "Infinity", 1, true⟩

/-- The text of digits with a point after the first `point` of them. -/
def positional (digits : Text) (point : Int) : Text :=
  if point ≤ 0 then
    '0'.toNat :: '.'.toNat :: (List.replicate (-point).toNat '0'.toNat ++ digits)
  else if (digits.length : Int) ≤ point then
    digits ++ List.replicate (point - digits.length).toNat '0'.toNat ++ ".0"
  else digits.take point.toNat ++ '.'.toNat :: digits.drop point.toNat

/-- The text of digits with a point after the first and an exponent. -/
def scientific (exponentDigits : Nat) (digits : Text) (exponent : Int) : Text :=
  let written := Text.ofNat exponent.natAbs
  let mantissa := match digits with
    | [] => []
    | [d] => [d]
    | d :: ds => d :: '.'.toNat :: ds
  mantissa ++ 'e'.toNat :: (if exponent < 0 then '-'.toNat else '+'.toNat)
    :: (List.replicate (exponentDigits - written.length) '0'.toNat ++ written)

/-- The text of a positive decimal. -/
def writeDecimal (style : DoubleNotation) (d : Double.Decimal) : Text :=
  let digits := Text.ofNat d.coefficient
  let point : Int := digits.length + d.exponent
  if -4 ≤ point - 1 ∧ point - 1 ≤ 15 then positional digits point
  else scientific style.exponentDigits digits (point - 1)

/-- The integer that a double is written as, if it is. -/
def integer? (style : DoubleNotation) (x : Double) : Option Int :=
  if style.wholeAsInteger then x.toInt?.filter (·.natAbs < Double.tenTo 21) else none

/-- The text of a double. -/
def write (style : DoubleNotation) (x : Double) : Text :=
  match style.integer? x with
  | some n => Text.ofInt n
  | none => match x with
    | .nan => style.nanName
    | .infinite negative => (if negative then "-" else "") ++ style.infinityName
    | .finite negative m e =>
      let magnitude : Text := if m = 0 then "0.0" else style.writeDecimal (Double.shortest m e)
      (if negative then "-" else "") ++ magnitude

end DoubleNotation

/-- The text of a number in a notation for doubles. -/
def Number.write (style : DoubleNotation) : Number → Except Failure Text
  | .int n => integerText n
  | .double x => .ok (style.write x)

end MockApi
