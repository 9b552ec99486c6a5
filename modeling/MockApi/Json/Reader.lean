import MockApi.Number.Numeral
import MockApi.Text.Quoted
import MockApi.Value.Basic

/-!
# Reading JSON

The reader takes a document apart from the left and stops at the first fault, which it reports by
kind and place. Each function takes the text from its place on and returns what it read with the
text after it; a fault remembers how much text was left, and the place follows from the length of
the whole document.

White space is space, tab, line feed and carriage return. Numbers without point and exponent are
integers. `NaN`, `Infinity` and `-Infinity` are read as numbers on demand and refused otherwise. A
repeated key keeps its first place and its last value.
-/

namespace MockApi

/-- What is wrong at a place of a document. -/
inductive JsonProblem
  | expectedValue
  | expectedComma
  | expectedColon
  | expectedName
  | extraData
  | unterminatedText
  | controlCharacter
  | badEscape
  | badUnicodeEscape
  | byteOrderMark
deriving DecidableEq, Repr

/-- The wording of a problem. -/
def JsonProblem.message : JsonProblem → Text
  | expectedValue => "Expecting value"
  | expectedComma => "Expecting ',' delimiter"
  | expectedColon => "Expecting ':' delimiter"
  | expectedName => "Expecting property name enclosed in double quotes"
  | extraData => "Extra data"
  | unterminatedText => "Unterminated string starting at"
  | controlCharacter => "Invalid control character at"
  | badEscape => "Invalid \\escape"
  | badUnicodeEscape => "Invalid \\uXXXX escape"
  | byteOrderMark => "Unexpected UTF-8 BOM (decode using utf-8-sig)"

/-- Why a document was refused. -/
inductive JsonFault
  /-- The document breaks the grammar with this much text left. -/
  | malformed (problem : JsonProblem) (left : Nat)
  /-- The document names a number that is not finite. -/
  | nonFinite (name : Text)
  /-- A part of the document cannot be turned into a value. -/
  | failed (failure : Failure)
deriving DecidableEq, Repr

namespace Json

/-- The fault of a problem at the start of the given text. -/
def fault {α : Type} (problem : JsonProblem) (t : Text) : Except JsonFault α :=
  .error (.malformed problem t.length)

/-- The white space of documents. -/
def isSpace (c : Nat) : Bool := c = 0x20 || c = 0x09 || c = 0x0A || c = 0x0D

/-- The text without the white space in front. -/
def skipSpace (t : Text) : Text := t.dropWhile isSpace

/-! ## Texts -/

/-- The code point of a short escape. -/
def unescape? (letter : Nat) : Option Nat :=
  if letter = Text.quotationMark ∨ letter = Text.backslash ∨ letter = '/'.toNat then some letter
  else if letter = 'b'.toNat then some 0x08
  else if letter = 'f'.toNat then some 0x0C
  else if letter = 'n'.toNat then some 0x0A
  else if letter = 'r'.toNat then some 0x0D
  else if letter = 't'.toNat then some 0x09
  else none

/-- High surrogates. -/
def isHigh (c : Nat) : Bool := 0xD800 ≤ c && c ≤ 0xDBFF

/-- Low surrogates. -/
def isLow (c : Nat) : Bool := 0xDC00 ≤ c && c ≤ 0xDFFF

/-- The code point of a surrogate pair. -/
def joinPair (high low : Nat) : Nat := 0x10000 + (high - 0xD800) * 0x400 + (low - 0xDC00)

/-- The code points read so far, last first, with one more read from a numbered escape. A low
surrogate joins the high one before it if that came from such an escape as well. -/
def pushUnit (done : Text) (afterHigh : Bool) (unit : Nat) : Text :=
  match done with
  | high :: done => if afterHigh && isLow unit then joinPair high unit :: done
    else unit :: high :: done
  | [] => [unit]

/-- Reads the rest of a text whose opening mark had `opening` code points from it on. The code
points read so far are in `done`, last first, and `afterHigh` tells whether the last of them is a
high surrogate from an escape. A numbered escape is read only if something follows it, since the
closing mark must. -/
def readText (opening : Nat) (done : Text) (afterHigh : Bool) :
    Text → Except JsonFault (Text × Text)
  | [] => .error (.malformed .unterminatedText opening)
  | c :: rest =>
    if c = Text.quotationMark then .ok (done.reverse, rest)
    else if c < 0x20 then .error (.malformed .controlCharacter (rest.length + 1))
    else if c ≠ Text.backslash then readText opening (c :: done) false rest
    else match rest with
      | [] => .error (.malformed .unterminatedText opening)
      | letter :: rest =>
        if letter = 'u'.toNat then
          match rest with
          | a :: b :: c :: d :: next :: rest' =>
            match Text.hexValue? [a, b, c, d] with
            | some unit =>
              readText opening (pushUnit done afterHigh unit) (isHigh unit) (next :: rest')
            | none => .error (.malformed .badUnicodeEscape (rest.length + 1))
          | _ => .error (.malformed .badUnicodeEscape (rest.length + 1))
        else match unescape? letter with
          | some c => readText opening (c :: done) false rest
          | none => .error (.malformed .badEscape (rest.length + 2))

/-! ## Numbers -/

/-- The ASCII digits at the start of a text, and the rest. -/
def spanDigits (t : Text) : Text × Text :=
  (t.takeWhile Text.isAsciiDigit, t.dropWhile Text.isAsciiDigit)

/-- The fraction at the start of a text, if a digit follows the point, and the rest. -/
def readFraction : Text → Option Text × Text
  | [] => (none, [])
  | c :: rest =>
    let (digits, rest') := spanDigits rest
    if c = '.'.toNat ∧ digits ≠ [] then (some digits, rest') else (none, c :: rest)

/-- The exponent at the start of a text, if it has a digit, and the rest. -/
def readExponent : Text → Option Int × Text
  | [] => (none, [])
  | c :: rest =>
    let (negative, rest') := Numeral.splitSign rest
    let (digits, rest'') := spanDigits rest'
    if (c = 'e'.toNat ∨ c = 'E'.toNat) ∧ digits ≠ [] then
      (some (if negative then -(Text.digitsValue digits) else Text.digitsValue digits), rest'')
    else (none, c :: rest)

/-- The digits before the point, where no zero stands in front of other digits. -/
def readWhole (t : Text) : Option (Text × Text) :=
  match t with
  | [] => none
  | c :: rest =>
    if c = '0'.toNat then some ([c], rest)
    else if Text.isAsciiDigit c then some (spanDigits t)
    else none

/-- Reads a number; `start` is the text from its sign on, and `t` from its first digit on. -/
def readNumber (negative : Bool) (start t : Text) : Except JsonFault (Value × Text) :=
  match readWhole t with
  | none => fault .expectedValue start
  | some (whole, rest) =>
    let (fraction, rest) := readFraction rest
    let (exponent, rest) := readExponent rest
    if fraction.isNone && exponent.isNone then
      if decimalDigitLimit < whole.length then .error (.failed (.numeralTooLong whole.length))
      else
        let n : Int := Text.digitsValue whole
        .ok (.int (if negative then -n else n), rest)
    else
      let decimal : Numeral.Decimal := ⟨negative, whole, fraction, exponent⟩
      .ok (.double decimal.toDouble, rest)

/-! ## Documents -/

/-- The literals of the grammar. -/
def literals : List (Text × Value) :=
  [("null", .null), ("true", .bool true), ("false", .bool false)]

/-- The names of numbers that are not finite. -/
def nonFiniteNames : List (Text × Double) :=
  [("NaN", .nan), ("Infinity", .infinite false), ("-Infinity", .infinite true)]

/-- The entry of a table whose name starts the text, and the rest. -/
def readName? {α : Type} (table : List (Text × α)) (t : Text) : Option ((Text × α) × Text) :=
  table.findSome? fun entry ↦ (entry.1.isPrefixOf? t).map fun rest ↦ (entry, rest)

/-- Reads a value that is neither a text nor a container. -/
def readScalar (namesNonFinite : Bool) (t : Text) : Except JsonFault (Value × Text) :=
  match readName? literals t, readName? nonFiniteNames t with
  | some ((_, value), rest), _ => .ok (value, rest)
  | none, some ((name, x), rest) =>
    if namesNonFinite then .ok (.double x, rest) else .error (.nonFinite name)
  | none, none => match t with
    | c :: rest => if c = '-'.toNat then readNumber true t rest else readNumber false t t
    | [] => fault .expectedValue t

/-- Reads the items of a list up to the closing bracket, given a reader of items. The number bounds
the items. -/
def readItems (item : Text → Except JsonFault (Value × Text)) :
    Nat → List Value → Text → Except JsonFault (List Value × Text)
  | 0, _, t => fault .expectedValue t
  | n + 1, done, t => do
    let (value, t) ← item t
    let done := value :: done
    match skipSpace t with
    | c :: rest =>
      if c = ']'.toNat then return (done.reverse, rest)
      else if c = ','.toNat then readItems item n done (skipSpace rest)
      else fault .expectedComma (c :: rest)
    | [] => fault .expectedComma []

/-- Reads a key and the colon after it. -/
def readKey : Text → Except JsonFault (Text × Text)
  | [] => fault .expectedName []
  | c :: rest => do
    if c ≠ Text.quotationMark then fault .expectedName (c :: rest)
    let (key, t) ← readText (rest.length + 1) [] false rest
    match skipSpace t with
    | c :: rest =>
      if c = ':'.toNat then return (key, skipSpace rest) else fault .expectedColon (c :: rest)
    | [] => fault .expectedColon []

/-- Reads the entries of an object up to the closing brace, given a reader of their values. The
number bounds the entries. -/
def readEntries (item : Text → Except JsonFault (Value × Text)) :
    Nat → List (Text × Value) → Text → Except JsonFault (List (Text × Value) × Text)
  | 0, _, t => fault .expectedName t
  | n + 1, done, t => do
    let (key, t) ← readKey t
    let (value, t) ← item t
    let done := (key, value) :: done
    match skipSpace t with
    | c :: rest =>
      if c = 0x7D then return (done.reverse, rest)
      else if c = ','.toNat then readEntries item n done (skipSpace rest)
      else fault .expectedComma (c :: rest)
    | [] => fault .expectedComma []

/-- Reads a value nested no more than `levels` deep. Containers have at most `size` items. -/
def readValue (namesNonFinite : Bool) (size : Nat) :
    Nat → Text → Except JsonFault (Value × Text)
  | _, [] => fault .expectedValue []
  | levels, c :: rest =>
    if c = Text.quotationMark then do
      let (t, rest) ← readText (rest.length + 1) [] false rest
      return (.text t, rest)
    else if c = '['.toNat then
      match levels with
      | 0 => .error (.failed .nestingTooDeep)
      | levels + 1 => match skipSpace rest with
        | c :: rest =>
          if c = ']'.toNat then .ok (.ofItems [], rest)
          else do
            let (items, rest) ←
              readItems (readValue namesNonFinite size levels) size [] (c :: rest)
            return (.ofItems items, rest)
        | [] => fault .expectedValue []
    else if c = 0x7B then
      match levels with
      | 0 => .error (.failed .nestingTooDeep)
      | levels + 1 => match skipSpace rest with
        | c :: rest =>
          if c = 0x7D then .ok (.ofEntries [], rest)
          else do
            let (written, rest) ←
              readEntries (readValue namesNonFinite size levels) size [] (c :: rest)
            return (.ofEntries (Table.ofList written), rest)
        | [] => fault .expectedName []
    else readScalar namesNonFinite (c :: rest)

/-- Reads a document that is no text with a byte order mark in front. -/
def readDocument [Stack] (namesNonFinite : Bool) (t : Text) : Except JsonFault Value := do
  let (value, rest) ← readValue namesNonFinite t.length Stack.reading (skipSpace t)
  let rest := skipSpace rest
  if rest.isEmpty then return value else fault .extraData rest

/-- Reads a document. -/
def read [Stack] (namesNonFinite : Bool) (t : Text) : Except JsonFault Value :=
  if t.head? = some 0xFEFF then fault .byteOrderMark t else readDocument namesNonFinite t

/-! ## Places of faults -/

/-- The place of a problem in words: line, column and offset, all but the last from one. -/
def placeText (document : Text) (left : Nat) : Text :=
  let before := document.take (document.length - left)
  let line := before.count '\n'.toNat + 1
  let column := (before.reverse.takeWhile (· ≠ '\n'.toNat)).length + 1
  "line " ++ Text.ofNat line ++ " column " ++ Text.ofNat column
    ++ " (char " ++ Text.ofNat before.length ++ ")"

/-- The wording of a fault of a document; some failures go without words. -/
def faultMessage? (document : Text) : JsonFault → Option Text
  | .malformed problem left => some (problem.message ++ ": " ++ placeText document left)
  | .nonFinite name => some (name ++ " is not valid JSON")
  | .failed failure => failure.message?

end Json

end MockApi
