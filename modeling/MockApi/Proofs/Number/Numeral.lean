import Mathlib.Algebra.Ring.Nat
import MockApi.Number.Numeral
import MockApi.Proofs.Text.Span

/-!
# Digits and numerals

The decimal digits of a natural number write it, and digits in front of something else are told from
it. Hexadecimal numerals have no limit on digits: they are read at any length.
-/

namespace MockApi

namespace Text

/-- Visible ASCII is not white space. -/
theorem isBlank_eq_false {c : Nat} (hlow : 0x20 < c) (hhigh : c < 0x7F) : isBlank c = false := by
  rw [isBlank, List.any_eq_false]
  simp only [blankRanges, List.mem_cons, List.not_mem_nil, or_false]
  grind

/-! ## Digits -/

theorem isDigit_iff {c : Nat} : isDigit c = true ↔ ∃ z ∈ digitZeros, z ≤ c ∧ c < z + 10 := by
  simp [isDigit, digitValue?]

/-- What looks like a digit is not white space. -/
theorem isBlank_eq_false_of_isDigitLike {c : Nat} (h : isDigitLike c = true) :
    isBlank c = false := by
  have hdigits : ∀ r ∈ blankRanges, ∀ z ∈ digitZeros, r.2 < z ∨ z + 10 ≤ r.1 := by decide
  have hothers : ∀ r ∈ blankRanges, ∀ s ∈ otherDigitRanges, r.2 < s.1 ∨ s.2 < r.1 := by decide
  rw [isBlank, List.any_eq_false]
  intro r hr
  rw [Bool.and_eq_true, decide_eq_true_eq, decide_eq_true_eq]
  rcases Bool.or_eq_true_iff.mp h with hdigit | hother
  · obtain ⟨z, hz, hlow, hhigh⟩ := isDigit_iff.mp hdigit
    have := hdigits r hr z hz
    omega
  · obtain ⟨s, hs, hrange⟩ := List.any_eq_true.mp hother
    have := hothers r hr s hs
    simp only [Bool.and_eq_true, decide_eq_true_eq] at hrange
    omega

/-! ## The digits of a natural number -/

theorem isAsciiDigit_iff {c : Nat} : isAsciiDigit c = true ↔ 0x30 ≤ c ∧ c ≤ 0x39 := by
  simp [isAsciiDigit]

theorem isBlank_eq_false_of_isAsciiDigit {c : Nat} (h : isAsciiDigit c = true) :
    isBlank c = false := by
  rw [isAsciiDigit_iff] at h
  exact isBlank_eq_false (by omega) (by omega)

theorem digitValue?_of_isAsciiDigit {c : Nat} (h : isAsciiDigit c = true) :
    digitValue? c = some (c - 0x30) := by
  rw [isAsciiDigit_iff] at h
  have hzero : (0x30 ≤ c && c < 0x30 + 10) = true := by
    simp only [Bool.and_eq_true, decide_eq_true_eq]
    omega
  have hfind : digitZeros.find? (fun z ↦ z ≤ c && c < z + 10) = some 0x30 :=
    List.find?_cons_of_pos hzero
  rw [digitValue?, hfind, Option.map_some]

theorem isAsciiDigit_of_mem_ofNat {n c : Nat} (h : c ∈ ofNat n) : isAsciiDigit c = true := by
  obtain ⟨d, hd, rfl⟩ := List.mem_map.mp h
  have hdigit := Nat.isDigit_of_mem_toDigits (by decide) (by decide) hd
  simp only [Char.isDigit, Bool.and_eq_true, decide_eq_true_eq] at hdigit
  exact isAsciiDigit_iff.mpr hdigit

theorem ofNat_ne_nil (n : Nat) : ofNat n ≠ [] := by
  simp [ofNat]

/-- An integer is written in digits and a minus sign. -/
theorem eq_or_isAsciiDigit_of_mem_ofInt {n : Int} {c : Nat} (h : c ∈ ofInt n) :
    c = '-'.toNat ∨ isAsciiDigit c = true := by
  unfold ofInt at h
  split at h
  · rcases List.mem_cons.mp h with rfl | h
    · exact .inl rfl
    · exact .inr (isAsciiDigit_of_mem_ofNat h)
  · exact .inr (isAsciiDigit_of_mem_ofNat h)

theorem ofInt_ne_nil (n : Int) : ofInt n ≠ [] := by
  unfold ofInt
  split
  · exact List.cons_ne_nil _ _
  · exact ofNat_ne_nil n.natAbs

theorem length_ofNat (n : Nat) : (ofNat n).length = (Nat.toDigits 10 n).length := List.length_map _

theorem digitValue?_le {c d : Nat} (h : digitValue? c = some d) : d ≤ 9 := by
  obtain ⟨z, hz, rfl⟩ := Option.map_eq_some_iff.mp h
  have hrange := List.find?_some hz
  simp only [Bool.and_eq_true, decide_eq_true_eq] at hrange
  omega

theorem foldl_digits_lt {digits : List Nat} (h : ∀ d ∈ digits, d ≤ 9) (n : Nat) :
    digits.foldl (fun n d ↦ 10 * n + d) n < (n + 1) * 10 ^ digits.length := by
  induction digits generalizing n with
  | nil => simp
  | cons d digits ih =>
    obtain ⟨hd, hdigits⟩ := List.forall_mem_cons.mp h
    calc digits.foldl (fun n d ↦ 10 * n + d) (10 * n + d)
        < (10 * n + d + 1) * 10 ^ digits.length := ih hdigits _
      _ ≤ ((n + 1) * 10) * 10 ^ digits.length := Nat.mul_le_mul_right _ (by omega)
      _ = (n + 1) * 10 ^ (digits.length + 1) := by rw [Nat.mul_assoc, ← Nat.pow_succ']

/-- A number has no more digits than are written. -/
theorem digitsValue_lt (t : Text) : digitsValue t < 10 ^ t.length := by
  have hdigits : ∀ d ∈ t.map fun c ↦ (digitValue? c).getD 0, d ≤ 9 := by
    intro d hd
    obtain ⟨c, -, rfl⟩ := List.mem_map.mp hd
    cases hvalue : digitValue? c with
    | none => exact Nat.zero_le 9
    | some d => exact digitValue?_le hvalue
  simpa [digitsValue, ofDigitValues] using foldl_digits_lt hdigits 0

/-- The digits of a number write the number. -/
theorem digitsValue_ofNat (n : Nat) : digitsValue (ofNat n) = n := by
  have hvalues : (ofNat n).map (fun c ↦ (digitValue? c).getD 0)
      = (Nat.toDigits 10 n).map fun d ↦ d.toNat - '0'.toNat := by
    rw [ofNat, List.map_map]
    refine List.map_congr_left fun d hd ↦ ?_
    have hdigit := isAsciiDigit_of_mem_ofNat (List.mem_map_of_mem (f := Char.toNat) hd)
    simp [digitValue?_of_isAsciiDigit hdigit]
  rw [digitsValue, hvalues, ofDigitValues, List.foldl_map]
  exact Nat.ofDigitChars_ten_toDigits

end Text

namespace Numeral

theorem spanDigits_append_of_stop {digits rest : Text} (h : ∀ c ∈ digits, Text.isDigit c = true)
    (hrest : ∀ c ∈ rest.head?, Text.isDigit c = false) :
    spanDigits (digits ++ rest) = (digits, rest) := by
  rw [spanDigits, Text.takeWhile_append_of_stop h hrest, Text.dropWhile_append_of_stop h hrest]

theorem spanDigits_append {digits rest : Text} (h : ∀ c ∈ digits, Text.isAsciiDigit c = true)
    (hrest : ∀ c ∈ rest.head?, Text.isDigit c = false) :
    spanDigits (digits ++ rest) = (digits, rest) :=
  spanDigits_append_of_stop (fun c hc ↦ Text.isDigit_of_isAsciiDigit (h c hc)) hrest

theorem spanDigits_self {digits : Text} (h : ∀ c ∈ digits, Text.isDigit c = true) :
    spanDigits digits = (digits, []) := by
  have happend : spanDigits (digits ++ []) = (digits, []) := spanDigits_append_of_stop h (by simp)
  rwa [List.append_nil] at happend

theorem isDigit_of_mem_spanDigits (t : Text) : ∀ c ∈ (spanDigits t).1, Text.isDigit c = true :=
  List.all_eq_true.mp (List.all_takeWhile ..)

theorem dropMark_of_ne {base : Nat} {digits : Text} (h : ∀ z ∈ digits.head?, z ≠ 0x30) :
    dropMark base digits = digits := by
  unfold dropMark
  split
  · rename_i z c d digits
    exact if_neg fun hand ↦ h z rfl hand.1
  · rfl

/-- A one with zeros behind it is a power of the base. -/
theorem valueInBase?_one_zeros (zeros : Nat) :
    valueInBase? 16 (0x31 :: List.replicate zeros 0x30) = some (16 ^ zeros) := by
  have hzeros (k n : Nat) : (List.replicate k 0x30).foldl (fun acc c ↦ acc.bind fun n ↦
      ((Text.hexDigit? c).filter (· < 16)).map fun d ↦ 16 * n + d) (some n)
      = some (16 ^ k * n) := by
    induction k generalizing n with
    | zero => simp
    | succ k ih =>
      rw [List.replicate_succ, List.foldl_cons]
      refine (ih (16 * n)).trans ?_
      rw [Nat.pow_succ, Nat.mul_assoc]
  refine (hzeros zeros 1).trans ?_
  rw [Nat.mul_one]

end Numeral

namespace Number

/-- Hexadecimal numerals are read at any length. -/
theorem ofText?_hex {digits : Text} (hne : digits ≠ [])
    (h : ∀ c ∈ digits, (Text.hexDigit? c).isSome = true) :
    ofText? (0x30 :: 0x78 :: digits) =
      (Numeral.valueInBase? 16 (Numeral.dropMark 16 digits)).map fun n ↦ .int n := by
  have hdigits : ∀ c ∈ digits, Text.isBlank c = false := by
    intro c hc
    have hhex := h c hc
    have hrange : 0x30 ≤ c ∧ c ≤ 0x66 := by
      simp only [Text.hexDigit?] at hhex
      grind [Text.isAsciiDigit_iff]
    exact Text.isBlank_eq_false (by omega) (by omega)
  have htrim : Text.trim (0x30 :: 0x78 :: digits) = 0x30 :: 0x78 :: digits := by
    refine Text.trimWhile_eq_self fun c hc ↦ ?_
    rcases List.mem_cons.mp hc with rfl | hc
    · decide
    rcases List.mem_cons.mp hc with rfl | hc
    · decide
    · exact hdigits c hc
  have hradix : Numeral.radixParts? (0x30 :: 0x78 :: digits) = some (16, digits) := by
    have hall : digits.all (fun d ↦ (Text.hexDigit? d).isSome) = true := List.all_eq_true.mpr h
    rw [Numeral.radixParts?, if_pos ⟨rfl, hne, hall⟩]
    rfl
  have hinfinite : ¬((0x30 :: 0x78 :: digits : Text) = ↑"Infinity" ∨
      (0x30 :: 0x78 :: digits : Text) = ↑"+Infinity") := by
    rintro (heq | heq) <;> cases heq
  have hnegative : ¬(0x30 :: 0x78 :: digits : Text) = ↑"-Infinity" := by
    intro heq
    cases heq
  unfold ofText?
  simp only [htrim]
  rw [if_neg (by simp), if_neg hinfinite, if_neg hnegative, hradix]
  dsimp only
  cases Numeral.valueInBase? 16 (Numeral.dropMark 16 digits) with
  | none => rfl
  | some n => rfl

end Number

end MockApi
