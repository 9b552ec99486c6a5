import MockApi.Text.Printable

/-!
# Quoted text

Messages quote the texts they complain about. A quoted text stands between apostrophes, or between
quotation marks if it holds apostrophes but no quotation mark; line ends, tabs, backslashes and the
closing mark are escaped by a backslash, and unprintable code points by their number.
-/

namespace MockApi.Text

/-- The apostrophe. -/
def apostrophe : Nat := 0x27

/-- The quotation mark. -/
def quotationMark : Nat := 0x22

/-- The backslash. -/
def backslash : Nat := 0x5C

/-- The mark on both sides of a quoted text. -/
def quoteMark (t : Text) : Nat :=
  if t.contains apostrophe && !t.contains quotationMark then quotationMark else apostrophe

/-- The numbered escape of a code point, as short as its number allows. -/
def numberedEscape (c : Nat) : Text :=
  if c < 0x100 then backslash :: 'x'.toNat :: hex 2 c
  else if c < 0x10000 then backslash :: 'u'.toNat :: hex 4 c
  else backslash :: 'U'.toNat :: hex 8 c

/-- A code point inside a text quoted with `mark`. -/
def quoteCodePoint (mark c : Nat) : Text :=
  if c = mark ∨ c = backslash then [backslash, c]
  else if c = '\n'.toNat then [backslash, 'n'.toNat]
  else if c = '\r'.toNat then [backslash, 'r'.toNat]
  else if c = '\t'.toNat then [backslash, 't'.toNat]
  else if isPrintable c then [c]
  else numberedEscape c

/-- The text as messages quote it. -/
def quoted (t : Text) : Text :=
  let mark := quoteMark t
  mark :: t.flatMap (quoteCodePoint mark) ++ [mark]

end MockApi.Text
