import MockApi.Proofs.Number.Decimal
import MockApi.Proofs.Number.Order
import MockApi.Proofs.Number.Recognition

/-!
# Numerals without a sign

A decimal without a sign is read as a number that is not negative, however many digits it has and
wherever its point and its exponent put it: what is too large becomes an infinity, and what is too
small becomes zero. Digits alone are read for the integer that they denote in base ten, whatever
scripts they come from.
-/

namespace MockApi

namespace Double

/-- Rounding keeps the sign. -/
theorem isNegative_ofRatio (negative : Bool) (num den : Nat) :
    (ofRatio negative num den).isNegative = negative := by
  unfold ofRatio
  split
  · rfl
  · dsimp only
    split <;> split <;> rfl

theorem isNegative_ofDecimal (negative : Bool) (coefficient : Nat) (exponent : Int) :
    (ofDecimal negative coefficient exponent).isNegative = negative := by
  unfold ofDecimal
  dsimp only
  split
  · rfl
  split
  · rfl
  split
  · rfl
  · exact isNegative_ofRatio ..

/-- A double with a positive sign has an exact value of at least zero. -/
theorem exists_extended?_nonneg {x : Double} (hnan : x ≠ .nan) (hsign : x.isNegative = false) :
    ∃ u, x.extended? = some u ∧ 0 ≤ u := by
  cases x with
  | nan => exact absurd rfl hnan
  | infinite negative =>
    obtain rfl : negative = false := hsign
    exact ⟨⊤, rfl, le_top⟩
  | finite negative m e =>
    obtain rfl : negative = false := hsign
    have hvalue : (0 : ℚ) ≤ (signed false m : ℚ) * 2 ^ e := by
      simp only [signed, Bool.false_eq_true, if_false]
      positivity
    exact ⟨_, rfl, WithBot.coe_le_coe.mpr (WithTop.coe_le_coe.mpr hvalue)⟩

end Double

namespace Number

/-- The number is zero or greater. -/
def IsNonneg (x : Number) : Prop := ∃ o, x.compare? (.int 0) = some o ∧ o ≠ .lt

theorem isNonneg_of_extended? {x : Number} {u : Extended} (hx : x.extended? = some u)
    (hu : 0 ≤ u) : x.IsNonneg := by
  refine ⟨cmp u 0, compare?_eq_some_iff.mpr ⟨u, 0, hx, ?_, rfl⟩, ?_⟩
  · rw [extended?, Int.cast_zero]
    rfl
  · rw [ne_eq, cmp_eq_lt_iff]
    exact hu.not_gt

theorem isNonneg_natCast (n : Nat) : (Number.int n).IsNonneg := by
  refine isNonneg_of_extended? rfl ?_
  have hn : (0 : ℚ) ≤ ((n : Int) : ℚ) := by positivity
  exact WithBot.coe_le_coe.mpr (WithTop.coe_le_coe.mpr hn)

end Number

namespace Numeral

variable {t : Text}

/-- The number that decimal digits of any scripts denote, most significant digit first. -/
def decimalValue (digits : Text) : Nat :=
  Nat.ofDigits 10 (digits.reverse.map fun c ↦ (Text.digitValue? c).getD 0)

theorem digitsValue_eq_decimalValue (t : Text) : Text.digitsValue t = decimalValue t := by
  rw [decimalValue, Nat.ofDigits_eq_foldr, List.foldr_map, List.foldr_reverse, Text.digitsValue,
    Text.ofDigitValues, List.foldl_map]
  exact congrArg (fun f ↦ List.foldl f 0 t) (funext fun n ↦ funext fun c ↦ Nat.add_comm _ _)

theorem lt_of_hexDigit? {c d : Nat} (h : Text.hexDigit? c = some d) : d < 16 := by
  simp only [Text.hexDigit?, Text.isAsciiDigit, Char.reduceToNat] at h
  grind

/-- There is nothing to trim around a literal. -/
theorem IsLiteral.trim_eq (h : IsLiteral Text.isDigit t) : t.trim = t := by
  refine Text.trimWhile_eq_self fun c hc ↦ ?_
  rcases h.visible c hc with hdigit | ⟨hlow, hhigh⟩
  · exact Text.isBlank_eq_false_of_isDigitLike (by rw [Text.isDigitLike, hdigit]; rfl)
  · exact Text.isBlank_eq_false hlow hhigh

/-- A decimal that is not marked as negative is no negative number. -/
theorem Decimal.isNonneg_toNumber {d : Decimal} (h : d.negative = false) :
    d.toNumber.IsNonneg := by
  unfold toNumber
  split
  · rw [h]
    exact Number.isNonneg_natCast _
  · have hsign : d.toDouble.isNegative = false :=
      (Double.isNegative_ofDecimal ..).trans h
    obtain ⟨u, hu, hnonneg⟩ := Double.exists_extended?_nonneg d.toDouble_ne_nan hsign
    exact Number.isNonneg_of_extended? hu hnonneg

theorem splitSign_of_isDecimal (h : IsDecimal Text.isDigit t) : splitSign t = (false, t) := by
  have hsplit := splitSign_append (.inl rfl) h.head?
  rwa [List.nil_append] at hsplit

/-- The parts of a decimal have the sign that stands in front of it. -/
theorem negative_of_decimal? {d : Decimal} (h : decimal? t = some d) :
    d.negative = (splitSign t).1 := by
  simp only [decimal?, Option.ite_none_left_eq_some] at h
  obtain ⟨exponent, -, rfl⟩ := Option.map_eq_some_iff.mp h.2
  rfl

end Numeral

namespace Number

open Numeral

variable {t : Text}

/-- **Decimals without a sign are not negative.** Each of them has a value. -/
theorem exists_ofText?_of_isDecimal (h : IsDecimal Text.isDigit t) :
    ∃ x, ofText? t = some x ∧ x.IsNonneg := by
  have htrim : t.trim = [] ++ t := (IsLiteral.decimal (.inl rfl) h).trim_eq
  have hread := ofText?_of_isDecimal (.inl rfl) h htrim
  rw [List.nil_append] at hread
  have hsome : (decimal? t).isSome = true :=
    isSome_decimal?_iff.mpr ⟨[], t, .inl rfl, h, rfl⟩
  obtain ⟨d, hd⟩ := Option.isSome_iff_exists.mp hsome
  have hnegative : d.negative = false := by
    rw [negative_of_decimal? hd, splitSign_of_isDecimal h]
  exact ⟨d.toNumber, by rw [hread, hd, Option.map_some], Decimal.isNonneg_toNumber hnegative⟩

/-- Digits are read for the integer that they denote, up to the limit on digits. -/
theorem ofText?_digits (h : IsRun Text.isDigit t) (hlength : t.length ≤ decimalDigitLimit) :
    ofText? t = some (.int (decimalValue t)) := by
  have htrim : t.trim = [] ++ t := (IsLiteral.decimal (.inl rfl) (.of_isRun h)).trim_eq
  rw [ofText?_of_digits (.inl rfl) h hlength htrim, digitsValue_eq_decimalValue]
  rfl

end Number

end MockApi
