import MockApi.Number.Layout
import MockApi.Text.Quoted
import MockApi.Value.Basic

/-!
# Writing JSON

A document is written in a style: with or without line breaks, with non-ASCII text as it is or as
`\u` escapes, with NaN and infinities by name or refused. Objects keep the order of their entries.
-/

namespace MockApi

/-- The decisions in which written documents differ. -/
structure JsonStyle where
  /-- The number of spaces per level, or `none` for a document without spaces and line breaks. -/
  indent : Option Nat
  /-- Whether everything but printable ASCII is escaped. -/
  asciiOnly : Bool
  /-- Whether NaN and infinities are written by name; they are refused otherwise. -/
  namesNonFinite : Bool

namespace JsonStyle

/-- Documents inside texts: compact, with text as it is. -/
def compact : JsonStyle := ⟨none, false, true⟩

/-- Documents for other programs: compact, and standard JSON only. -/
def standard : JsonStyle := ⟨none, false, false⟩

/-- Documents for people: one item a line, in ASCII. -/
def readable : JsonStyle := ⟨some 2, true, true⟩

end JsonStyle

namespace Json

/-! ## Texts -/

/-- A 16-bit unit as an escape. -/
def unitEscape (unit : Nat) : Text := Text.backslash :: 'u'.toNat :: Text.hex 4 unit

/-- A code point as one escape, or as two surrogate escapes. -/
def codePointEscape (c : Nat) : Text :=
  if c < 0x10000 then unitEscape c
  else unitEscape (0xD800 + (c - 0x10000) / 0x400) ++ unitEscape (0xDC00 + (c - 0x10000) % 0x400)

/-- The letter of the short escape of a code point. -/
def shortEscape? (c : Nat) : Option Nat :=
  if c = Text.quotationMark ∨ c = Text.backslash then some c
  else if c = 0x08 then some 'b'.toNat
  else if c = 0x0C then some 'f'.toNat
  else if c = 0x0A then some 'n'.toNat
  else if c = 0x0D then some 'r'.toNat
  else if c = 0x09 then some 't'.toNat
  else none

/-- A code point inside a written text. -/
def escape (asciiOnly : Bool) (c : Nat) : Text :=
  match shortEscape? c with
  | some letter => [Text.backslash, letter]
  | none =>
    if c < 0x20 then unitEscape c
    else if asciiOnly && 0x7F ≤ c then codePointEscape c
    else [c]

/-- A text as a document. -/
def writeText (asciiOnly : Bool) (t : Text) : Text :=
  Text.quotationMark :: t.flatMap (escape asciiOnly) ++ [Text.quotationMark]

/-! ## Documents -/

/-- The line break before an item at a level, if the style breaks lines. -/
def lineBreak (style : JsonStyle) (level : Nat) : Text :=
  match style.indent with
  | some spaces => '\n'.toNat :: List.replicate (spaces * level) ' '.toNat
  | none => []

/-- Items between brackets, at a level of nesting. -/
def bracketed (style : JsonStyle) (level : Nat) (opening closing : Nat) : List Text → Text
  | [] => [opening, closing]
  | items =>
    opening :: (lineBreak style (level + 1)
      ++ Text.join (','.toNat :: lineBreak style (level + 1)) items
      ++ lineBreak style level ++ [closing])

/-- A number as a document. -/
def writeNumber (style : JsonStyle) (x : Number) : Except Failure Text :=
  match x with
  | .int n => integerText n
  | .double x =>
    if !style.namesNonFinite && (x.isNaN || x.isInfinite) then .error .numberNotFinite
    else .ok (DoubleNotation.json.write x)

/-- A key with the colon after it. -/
def writeKey (style : JsonStyle) (key : Text) : Text :=
  writeText style.asciiOnly key ++ (if style.indent.isSome then ": " else ":")

/-- A value nested no more than `levels` deep as a document at a level of nesting. -/
def writeWithin (style : JsonStyle) : Nat → Nat → Value → Except Failure Text
  | _, _, .null | _, _, .undefined => .ok "null"
  | _, _, .bool b => .ok (if b then "true" else "false")
  | _, _, .number x => writeNumber style x
  | _, _, .text t => .ok (writeText style.asciiOnly t)
  | 0, _, .list .. | 0, _, .object .. => .error .nestingTooDeep
  | levels + 1, level, .list _ items => do
    return bracketed style level '['.toNat ']'.toNat
      (← items.mapM fun item ↦ writeWithin style levels (level + 1) item)
  | levels + 1, level, .object _ entries => do
    return bracketed style level 0x7B 0x7D
      (← entries.mapM fun (key, value) ↦ do
        return writeKey style key ++ (← writeWithin style levels (level + 1) value))

/-- A value as a document. -/
def write [Stack] (style : JsonStyle) (value : Value) : Except Failure Text :=
  writeWithin style Stack.writing 0 value

theorem escape_eq_self {c : Nat} (h : 0x20 ≤ c) (hq : c ≠ Text.quotationMark)
    (hb : c ≠ Text.backslash) : escape false c = [c] := by
  have hs : shortEscape? c = none := by
    unfold shortEscape?
    rw [if_neg (by simp [hq, hb]), if_neg (by omega), if_neg (by omega), if_neg (by omega),
      if_neg (by omega), if_neg (by omega)]
  simp only [escape, hs]
  rw [if_neg (by omega)]
  simp

end Json

end MockApi
