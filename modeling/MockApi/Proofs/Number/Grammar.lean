import Mathlib.Data.Nat.Digits.Defs
import MockApi.Proofs.Number.Numeral

/-!
# Numeric strings

JavaScript's grammar of numeric strings: nothing at all, infinities, decimals with an optional sign,
point and exponent, and unsigned literals in base 2, 8 and 16, with white space around them. The
grammar is stated over any class of decimal digits, because the lenient reading of numbers takes the
same shapes from a wider class. Where else it departs from the grammar is named here too: the code
points that it takes for white space or digits on its own, and binary literals with two marks.

A literal consists of digits of its class and of visible ASCII, and it remains one over every class
that holds its digits.
-/

namespace MockApi

namespace Numeral

/-! ## The grammar -/

/-- The ranges of white space and line terminators of JavaScript. -/
def scriptSpaceRanges : List (Nat × Nat) :=
  [(0x09, 0x0D), (0x20, 0x20), (0xA0, 0xA0), (0x1680, 0x1680), (0x2000, 0x200A), (0x2028, 0x2029),
    (0x202F, 0x202F), (0x205F, 0x205F), (0x3000, 0x3000), (0xFEFF, 0xFEFF)]

/-- Whether a code point is white space or a line terminator of JavaScript. -/
def isScriptSpace (c : Nat) : Bool :=
  scriptSpaceRanges.any fun (low, high) ↦ low ≤ c && c ≤ high

/-- A sign, or nothing. -/
def IsSign (t : Text) : Prop := t = [] ∨ t = ['+'.toNat] ∨ t = ['-'.toNat]

/-- One digit or more. -/
def IsRun (digit : Nat → Bool) (t : Text) : Prop := t ≠ [] ∧ ∀ c ∈ t, digit c = true

/-- The exponent of a decimal, or nothing. -/
inductive IsExponent (digit : Nat → Bool) : Text → Prop
  /-- There is no exponent. -/
  | absent : IsExponent digit []
  /-- A letter, a sign or none, and digits. -/
  | present {mark : Nat} {sign digits : Text} (hmark : mark = 'e'.toNat ∨ mark = 'E'.toNat)
      (hsign : IsSign sign) (hdigits : IsRun digit digits) :
      IsExponent digit (mark :: (sign ++ digits))

/-- A decimal without a sign in front. -/
inductive IsDecimal (digit : Nat → Bool) : Text → Prop
  /-- Digits without a point. -/
  | whole {digits exponent : Text} (hdigits : IsRun digit digits)
      (hexponent : IsExponent digit exponent) : IsDecimal digit (digits ++ exponent)
  /-- Digits in front of the point, and possibly behind it. -/
  | pointed {digits fraction exponent : Text} (hdigits : IsRun digit digits)
      (hfraction : ∀ c ∈ fraction, digit c = true) (hexponent : IsExponent digit exponent) :
      IsDecimal digit (digits ++ '.'.toNat :: (fraction ++ exponent))
  /-- Digits behind the point only. -/
  | fraction {fraction exponent : Text} (hfraction : IsRun digit fraction)
      (hexponent : IsExponent digit exponent) :
      IsDecimal digit ('.'.toNat :: (fraction ++ exponent))

/-- The letters that mark a base, each with its base. -/
def radixMarks : List (Nat × Nat) :=
  [('x'.toNat, 16), ('X'.toNat, 16), ('o'.toNat, 8), ('O'.toNat, 8), ('b'.toNat, 2),
    ('B'.toNat, 2)]

/-- One digit of the base or more. -/
def IsRadixRun (base : Nat) (t : Text) : Prop :=
  t ≠ [] ∧ ∀ c ∈ t, ∃ d < base, Text.hexDigit? c = some d

/-- The literals that a numeric string consists of, white space apart. -/
inductive IsLiteral (digit : Nat → Bool) : Text → Prop
  /-- Nothing at all. -/
  | empty : IsLiteral digit []
  /-- An infinity. -/
  | infinity {sign : Text} (hsign : IsSign sign) :
      IsLiteral digit (sign ++ Text.ofString "Infinity")
  /-- A decimal, possibly with a sign. -/
  | decimal {sign t : Text} (hsign : IsSign sign) (hdecimal : IsDecimal digit t) :
      IsLiteral digit (sign ++ t)
  /-- Digits of a marked base, never with a sign. -/
  | radix {mark base : Nat} {digits : Text} (hmark : (mark, base) ∈ radixMarks)
      (hdigits : IsRadixRun base digits) : IsLiteral digit ('0'.toNat :: mark :: digits)

/-- The numeric strings of JavaScript: literals with ASCII digits, and white space around them. -/
def IsNumeric (t : Text) : Prop := IsLiteral Text.isAsciiDigit (Text.trimWhile isScriptSpace t)

/-- The number that digits write in a base, most significant digit first. -/
def radixValue (base : Nat) (digits : Text) : Nat :=
  Nat.ofDigits base (digits.reverse.map fun c ↦ (Text.hexDigit? c).getD 0)

/-- A binary literal with its mark written twice. -/
def HasTwoMarks (t : Text) : Prop :=
  ∃ mark mark' digits, (mark, 2) ∈ radixMarks ∧ (mark', 2) ∈ radixMarks ∧ IsRadixRun 2 digits ∧
    t = '0'.toNat :: mark :: '0'.toNat :: mark' :: digits

/-- What the reading takes for white space or for a digit although JavaScript does not: information
separators, NEXT LINE, and the digits of other scripts. -/
def isForeign (c : Nat) : Bool :=
  (0x1C ≤ c && c ≤ 0x1F) || c = 0x85 || (Text.isDigit c && !Text.isAsciiDigit c)

/-! ## Code points of literals -/

section Grammar

variable {digit digit' : Nat → Bool} {t : Text}

theorem IsExponent.head? (h : IsExponent digit t) :
    ∀ c ∈ t.head?, c = 'e'.toNat ∨ c = 'E'.toNat := by
  cases h with
  | absent => simp
  | present hmark _ _ => simpa using hmark

/-- What stands in a decimal besides digits. -/
def decimalMarks : List Nat := ['+'.toNat, '-'.toNat, '.'.toNat, 'e'.toNat, 'E'.toNat]

theorem IsSign.subset (h : IsSign t) : ∀ c ∈ t, c ∈ decimalMarks := by
  rcases h with rfl | rfl | rfl <;> decide

theorem IsExponent.subset (h : IsExponent digit t) :
    ∀ c ∈ t, digit c = true ∨ c ∈ decimalMarks := by
  cases h with
  | absent => simp
  | present hmark hsign hdigits =>
    intro c hc
    rcases List.mem_cons.mp hc with rfl | hc
    · exact .inr (by rcases hmark with rfl | rfl <;> decide)
    rcases List.mem_append.mp hc with hc | hc
    · exact .inr (hsign.subset c hc)
    · exact .inl (hdigits.2 c hc)

theorem IsDecimal.subset (h : IsDecimal digit t) :
    ∀ c ∈ t, digit c = true ∨ c ∈ decimalMarks := by
  have hpoint : '.'.toNat ∈ decimalMarks := by decide
  intro c hc
  cases h with
  | whole hdigits hexponent =>
    rcases List.mem_append.mp hc with hc | hc
    · exact .inl (hdigits.2 c hc)
    · exact hexponent.subset c hc
  | pointed hdigits hfraction hexponent =>
    rcases List.mem_append.mp hc with hc | hc
    · exact .inl (hdigits.2 c hc)
    rcases List.mem_cons.mp hc with rfl | hc
    · exact .inr hpoint
    rcases List.mem_append.mp hc with hc | hc
    · exact .inl (hfraction c hc)
    · exact hexponent.subset c hc
  | fraction hfraction hexponent =>
    rcases List.mem_cons.mp hc with rfl | hc
    · exact .inr hpoint
    rcases List.mem_append.mp hc with hc | hc
    · exact .inl (hfraction.2 c hc)
    · exact hexponent.subset c hc

theorem IsDecimal.ne_nil (h : IsDecimal digit t) : t ≠ [] := by
  cases h with
  | whole hdigits _ => simp [hdigits.1]
  | pointed _ _ _ => simp
  | fraction _ _ => simp

theorem IsDecimal.of_isRun (h : IsRun digit t) : IsDecimal digit t := by
  have hwhole := IsDecimal.whole h .absent
  rwa [List.append_nil] at hwhole

/-- The digits of bases up to 16 are visible. -/
theorem visible_of_hexDigit? {c d : Nat} (h : Text.hexDigit? c = some d) : 0x20 < c ∧ c < 0x7F := by
  have hsome : (Text.hexDigit? c).isSome = true := by rw [h]; rfl
  simp only [Text.hexDigit?] at hsome
  grind [Text.isAsciiDigit_iff]

/-- A mark of a base and what it marks are visible. -/
theorem visible_of_mark {mark base : Nat} {digits : Text} (hmark : (mark, base) ∈ radixMarks)
    (hdigits : ∀ d ∈ digits, (Text.hexDigit? d).isSome = true) :
    ∀ c ∈ '0'.toNat :: mark :: digits, 0x20 < c ∧ c < 0x7F := by
  have hmarks : ∀ m ∈ radixMarks, 0x20 < m.1 ∧ m.1 < 0x7F := by decide
  refine List.forall_mem_cons.mpr ⟨by decide, List.forall_mem_cons.mpr ⟨hmarks _ hmark, ?_⟩⟩
  intro c hc
  obtain ⟨d, hd⟩ := Option.isSome_iff_exists.mp (hdigits c hc)
  exact visible_of_hexDigit? hd

theorem IsRadixRun.isSome_hexDigit? {base : Nat} (h : IsRadixRun base t) :
    ∀ c ∈ t, (Text.hexDigit? c).isSome = true := by
  intro c hc
  obtain ⟨d, -, hd⟩ := h.2 c hc
  rw [hd, Option.isSome_some]

/-- A literal consists of digits and visible ASCII. -/
theorem IsLiteral.visible (h : IsLiteral digit t) :
    ∀ c ∈ t, digit c = true ∨ (0x20 < c ∧ c < 0x7F) := by
  have hdecimalMarks : ∀ c ∈ decimalMarks, 0x20 < c ∧ c < 0x7F := by decide
  have hname : ∀ c ∈ Text.ofString "Infinity", 0x20 < c ∧ c < 0x7F := by decide
  intro c hc
  cases h with
  | empty => cases hc
  | infinity hsign =>
    rcases List.mem_append.mp hc with hc | hc
    · exact .inr (hdecimalMarks c (hsign.subset c hc))
    · exact .inr (hname c hc)
  | decimal hsign hdecimal =>
    rcases List.mem_append.mp hc with hc | hc
    · exact .inr (hdecimalMarks c (hsign.subset c hc))
    · exact (hdecimal.subset c hc).imp_right (hdecimalMarks c)
  | radix hmark hdigits => exact .inr (visible_of_mark hmark hdigits.isSome_hexDigit? c hc)

theorem IsRun.imp (h : IsRun digit t) (hdigit : ∀ c ∈ t, digit c = true → digit' c = true) :
    IsRun digit' t := ⟨h.1, fun c hc ↦ hdigit c hc (h.2 c hc)⟩

theorem IsExponent.imp (h : IsExponent digit t)
    (hdigit : ∀ c ∈ t, digit c = true → digit' c = true) : IsExponent digit' t := by
  cases h with
  | absent => exact .absent
  | present hmark hsign hdigits =>
    exact .present hmark hsign (hdigits.imp fun c hc ↦ hdigit c (by simp [hc]))

theorem IsDecimal.imp (h : IsDecimal digit t)
    (hdigit : ∀ c ∈ t, digit c = true → digit' c = true) : IsDecimal digit' t := by
  cases h with
  | whole hdigits hexponent =>
    exact .whole (hdigits.imp fun c hc ↦ hdigit c (by simp [hc]))
      (hexponent.imp fun c hc ↦ hdigit c (by simp [hc]))
  | pointed hdigits hfraction hexponent =>
    exact .pointed (hdigits.imp fun c hc ↦ hdigit c (by simp [hc]))
      (fun c hc ↦ hdigit c (by simp [hc]) (hfraction c hc))
      (hexponent.imp fun c hc ↦ hdigit c (by simp [hc]))
  | fraction hfraction hexponent =>
    exact .fraction (hfraction.imp fun c hc ↦ hdigit c (by simp [hc]))
      (hexponent.imp fun c hc ↦ hdigit c (by simp [hc]))

/-- A literal stays one over any class of digits that holds its own. -/
theorem IsLiteral.imp (h : IsLiteral digit t)
    (hdigit : ∀ c ∈ t, digit c = true → digit' c = true) : IsLiteral digit' t := by
  cases h with
  | empty => exact .empty
  | infinity hsign => exact .infinity hsign
  | decimal hsign hdecimal =>
    exact .decimal hsign (hdecimal.imp fun c hc ↦ hdigit c (List.mem_append_right _ hc))
  | radix hmark hdigits => exact .radix hmark hdigits

end Grammar

end Numeral

end MockApi
