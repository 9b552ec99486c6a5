import MockApi.Number.Basic
import MockApi.Number.Decimal
import MockApi.Text.Blank

/-!
# Numerals

Two readings of texts as numbers. The lenient one, `Number.ofText?`, takes what people write into
queries and conditions: nothing at all counts as zero, then there are infinities, integers in base
2, 8 and 16, whose mark may stand twice where its letter passes for a digit, and decimals with an
optional point and exponent. The strict one, `integerOfText`, takes integers only, with single
underscores between digits, and explains its refusals.

Decimal digits may be of any script in both.
-/

namespace MockApi

namespace Numeral

/-! ## The lenient reading -/

/-- The base named by the letter after the leading zero. -/
def base? (c : Nat) : Option Nat :=
  if c = 'x'.toNat ∨ c = 'X'.toNat then some 16
  else if c = 'o'.toNat ∨ c = 'O'.toNat then some 8
  else if c = 'b'.toNat ∨ c = 'B'.toNat then some 2
  else none

/-- The digits after a second mark of their base, if there is one. The letter of the mark has to
pass for a digit itself, so `0b0b1` has a second mark and `0x0x1` is no numeral at all. -/
def dropMark (base : Nat) : Text → Text
  | z :: c :: d :: digits =>
    if z = '0'.toNat ∧ base? c = some base then d :: digits else z :: c :: d :: digits
  | digits => digits

/-- The number written by ASCII digits in a base up to 16. -/
def valueInBase? (base : Nat) (digits : Text) : Option Nat :=
  digits.foldl (fun acc c ↦ acc.bind fun n ↦
    ((Text.hexDigit? c).filter (· < base)).map fun d ↦ base * n + d) (some 0)

/-- The base and the digits of a text such as `0x1f`, whatever the digits are worth in the base. -/
def radixParts? : Text → Option (Nat × Text)
  | z :: c :: digits =>
    if z = '0'.toNat ∧ digits ≠ [] ∧ digits.all (fun d ↦ (Text.hexDigit? d).isSome) then
      (base? c).map fun base ↦ (base, digits)
    else none
  | _ => none

/-- A sign in front of a text, and the rest. -/
def splitSign : Text → Bool × Text
  | c :: rest =>
    if c = '-'.toNat then (true, rest) else if c = '+'.toNat then (false, rest)
    else (false, c :: rest)
  | [] => (false, [])

/-- The parts of a decimal. -/
structure Decimal where
  /-- Whether a minus sign stands in front. -/
  negative : Bool
  /-- The digits before the point. -/
  whole : Text
  /-- The digits after the point, if there is a point. -/
  fraction : Option Text
  /-- The exponent, if there is one. -/
  exponent : Option Int
deriving DecidableEq, Repr

/-- The digits at the start of a text, and the rest. -/
def spanDigits (t : Text) : Text × Text := (t.takeWhile Text.isDigit, t.dropWhile Text.isDigit)

/-- An exponent that fills the text, or none in an empty text. -/
def exponent? : Text → Option (Option Int)
  | [] => some none
  | c :: rest =>
    let (negative, digits) := splitSign rest
    if (c = 'e'.toNat ∨ c = 'E'.toNat) ∧ digits ≠ [] ∧ digits.all Text.isDigit then
      some (some (if negative then -(Text.digitsValue digits) else Text.digitsValue digits))
    else none

/-- The parts of a decimal that fills the text. There is a digit before or after the point. -/
def decimal? (t : Text) : Option Decimal :=
  let (negative, t) := splitSign t
  let (whole, rest) := spanDigits t
  let (fraction, rest) := match rest with
    | c :: rest' =>
      if c = '.'.toNat then
        let (fraction, rest'') := spanDigits rest'
        (some fraction, rest'')
      else (none, rest)
    | [] => (none, [])
  if whole.isEmpty ∧ (fraction.getD []).isEmpty then none
  else (exponent? rest).map fun exponent ↦ ⟨negative, whole, fraction, exponent⟩

/-- The double nearest to a decimal. -/
def Decimal.toDouble (d : Decimal) : Double :=
  let fraction := d.fraction.getD []
  Double.ofDecimal d.negative (Text.digitsValue (d.whole ++ fraction))
    (d.exponent.getD 0 - fraction.length)

/-- A decimal without point and exponent is an integer, unless it has too many digits. -/
def Decimal.toNumber (d : Decimal) : Number :=
  if d.fraction.isNone ∧ d.exponent.isNone ∧ d.whole.length ≤ decimalDigitLimit then
    .int (if d.negative then -(Text.digitsValue d.whole) else Text.digitsValue d.whole)
  else .double d.toDouble

end Numeral

/-- The number that a text writes, read leniently. -/
def Number.ofText? (t : Text) : Option Number :=
  let t := t.trim
  if t.isEmpty then some (.int 0)
  else if t = "Infinity" ∨ t = "+Infinity" then some (.double (.infinite false))
  else if t = "-Infinity" then some (.double (.infinite true))
  else match Numeral.radixParts? t with
    | some (base, digits) =>
      (Numeral.valueInBase? base (Numeral.dropMark base digits)).map fun n ↦ .int n
    | none => (Numeral.decimal? t).map (·.toNumber)

/-! ## The strict reading -/

/-- White space that may surround an integer: blanks other than the information separators. -/
def Numeral.isMargin (c : Nat) : Bool := Text.isBlank c && !(0x1C ≤ c && c ≤ 0x1F)

/-- The integer that a text writes: a sign, digits with single underscores between them, and white
space around the whole. -/
def integerOfText (t : Text) : Except Failure Int :=
  let (negative, body) := Numeral.splitSign (Text.trimWhile Numeral.isMargin t)
  let isBody (c : Nat) : Bool := Text.isDigit c || c = '_'.toNat
  let groups := Text.splitOn '_'.toNat (body.takeWhile isBody)
  if groups.any List.isEmpty then .error (.notAnInteger t)
  else
    let digits := groups.flatten
    if decimalDigitLimit < digits.length then .error (.numeralTooLong digits.length)
    else if !(body.dropWhile isBody).isEmpty then .error (.notAnInteger t)
    else .ok (if negative then -(Text.digitsValue digits) else Text.digitsValue digits)

end MockApi
