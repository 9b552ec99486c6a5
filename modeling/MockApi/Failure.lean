import MockApi.Stack
import MockApi.Text.Digit
import MockApi.Text.Quoted

/-!
# Failures of values

Working with a value can fail for a handful of reasons, none of which depends on who asked: a number
is too large for a conversion, a text is no integer, `null` has no properties, or a value is nested
deeper than it can be walked. Each reason is a constructor; the wording is in one function.
-/

namespace MockApi

/-- The most decimal digits that an integer may have when it is written or read. -/
def decimalDigitLimit : Nat := 4300

/-- Why an operation on values failed. -/
inductive Failure
  /-- An integer beyond the finite doubles was needed as a double. -/
  | integerTooLarge
  /-- An integer to be written has more digits than the limit. -/
  | integerTooLong
  /-- A numeral to be read has more digits than the limit. -/
  | numeralTooLong (digits : Nat)
  /-- A NaN or an infinity was to be written as standard JSON. -/
  | numberNotFinite
  /-- A text to be read as an integer is none. -/
  | notAnInteger (text : Text)
  /-- A property was asked of `null` or `undefined`. -/
  | noProperties (target key : Text)
  /-- No relation between values goes by this symbol. -/
  | unknownRelation (symbol : Text)
  /-- No arithmetic operation goes by this symbol. -/
  | unknownArithmetic (symbol : Text)
  /-- Something is nested deeper than the stack has room for. -/
  | nestingTooDeep
deriving DecidableEq, Repr

namespace Failure

/-- The head of the message on a number of digits beyond the limit. -/
def digitLimitMessage (detail : Text) : Text :=
  "Exceeds the limit (" ++ Text.ofNat decimalDigitLimit ++ " digits) for integer string conversion"
    ++ detail ++ "; use sys.set_int_max_str_digits() to increase the limit"

/-- The wording of a failure; a lack of room on the stack goes without words. -/
def message? : Failure → Option Text
  | integerTooLarge => some "int too large to convert to float"
  | integerTooLong => some (digitLimitMessage [])
  | numeralTooLong digits =>
    some (digitLimitMessage (": value has " ++ Text.ofNat digits ++ " digits"))
  | notAnInteger text =>
    some ("invalid literal for int() with base 10: " ++ (Text.quoted text).take 200)
  | noProperties target key =>
    some ("Cannot read properties of " ++ target ++ " (reading '" ++ key ++ "')")
  | unknownRelation symbol => some ("Unknown relational operator: " ++ symbol)
  | unknownArithmetic symbol => some ("Unknown arithmetic operator: " ++ symbol)
  | numberNotFinite => some "Out of range float values are not JSON compliant"
  | nestingTooDeep => none

end Failure

end MockApi
