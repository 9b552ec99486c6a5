import MockApi.Proofs.Condition.Spacing
import MockApi.Proofs.Number.Unsigned

/-!
# Numbers of conditions

The lexer and the reading of numbers go by two descriptions of what a number looks like. The lexer
takes hexadecimal digits behind a mark and decimals without a sign; the reading takes more than
that, and by other means. Every number of a condition is also a numeral of the reading, so each
number token has a value, which is not negative, and none of them is taken for `null`.
-/

namespace MockApi.Lexer

open Numeral

/-- The numbers of conditions: hexadecimal digits behind their mark, and decimals without a sign,
over the digits of all scripts. -/
inductive IsNumeral : Text → Prop
  /-- Digits of base 16 behind a zero and a mark. -/
  | hex {mark : Nat} {digits : Text} (hmark : mark = 'x'.toNat ∨ mark = 'X'.toNat)
      (hdigits : IsRun isHexDigit digits) : IsNumeral ('0'.toNat :: mark :: digits)
  /-- A decimal. -/
  | decimal {t : Text} (h : IsDecimal Text.isDigit t) : IsNumeral t

variable {t w left : Text}

/-! ## What the lexer takes -/

/-- An exponent of the lexer is one of the grammar. -/
theorem isExponent_splitExponent (t : Text) : IsExponent Text.isDigit (splitExponent t).1 := by
  rcases splitExponent_shape t with hnil | ⟨e, sign, digits, heq, hmark, hsign, hne, hdigits⟩
  · rw [hnil]
    exact .absent
  · rw [heq]
    refine .present hmark ?_ ⟨hne, hdigits⟩
    rcases hsign with rfl | ⟨c, rfl, rfl | rfl⟩
    · exact .inl rfl
    · exact .inr (.inl rfl)
    · exact .inr (.inr rfl)

/-- An exponent of the grammar is taken as a whole. -/
theorem splitExponent_of_isExponent (h : IsExponent Text.isDigit t) :
    splitExponent t = (t, []) := by
  cases h with
  | absent => rfl
  | @present mark sign digits hmark hsign hdigits =>
    obtain ⟨hne, hall⟩ := hdigits
    obtain ⟨d, ds, rfl⟩ := List.exists_cons_of_ne_nil hne
    rcases hsign with rfl | hsign
    · -- the first digit is not taken for a sign
      have hd : ¬(d = '+'.toNat ∨ d = '-'.toNat) := by
        rintro (rfl | rfl) <;> exact absurd (hall _ List.mem_cons_self) (by decide)
      simp only [List.nil_append, splitExponent, if_neg hd, spanDigits_self hall]
      exact if_pos ⟨hmark, hne⟩
    · obtain ⟨c, rfl, hc⟩ : ∃ c, sign = [c] ∧ (c = '+'.toNat ∨ c = '-'.toNat) := by
        rcases hsign with rfl | rfl
        · exact ⟨_, rfl, .inl rfl⟩
        · exact ⟨_, rfl, .inr rfl⟩
      simp only [List.cons_append, List.nil_append, splitExponent, if_pos hc,
        spanDigits_self hall]
      exact if_pos ⟨hmark, hne⟩

theorem splitFraction_of_isExponent (h : IsExponent Text.isDigit t) : splitFraction t = ([], t) :=
  splitFraction_of_ne fun c hc ↦ by rcases h.head? c hc with rfl | rfl <;> decide

theorem splitFraction_pointed {fraction exponent : Text}
    (hfraction : ∀ c ∈ fraction, Text.isDigit c = true)
    (hexponent : IsExponent Text.isDigit exponent) :
    splitFraction ('.'.toNat :: (fraction ++ exponent)) = ('.'.toNat :: fraction, exponent) := by
  rw [splitFraction, if_pos rfl, spanDigits_append_of_stop hfraction hexponent.stop]

/-- A decimal number of the lexer is one of the grammar. -/
theorem isDecimal_of_splitDecimal? (h : splitDecimal? t = some (w, left)) :
    IsDecimal Text.isDigit w := by
  simp only [splitDecimal?, Option.ite_none_left_eq_some, Option.some.injEq, Prod.mk.injEq] at h
  obtain ⟨hne, rfl, -⟩ := h
  have hexponent := isExponent_splitExponent (splitFraction (spanDigits t).2).2
  have hwhole := isDigit_of_mem_spanDigits t
  rcases splitFraction_shape (spanDigits t).2 with hnil | ⟨digits, hpoint, hdigits⟩
  · rw [hnil] at hne ⊢
    rw [List.append_nil]
    exact .whole ⟨by simpa using hne, hwhole⟩ hexponent
  · rw [hpoint] at hne ⊢
    rw [List.append_assoc, List.cons_append]
    by_cases hempty : (spanDigits t).1 = []
    · have hdigits_ne : digits ≠ [] := by
        rintro rfl
        exact hne ⟨by simp [hempty], by simp⟩
      rw [hempty, List.nil_append]
      exact .fraction ⟨hdigits_ne, hdigits⟩ hexponent
    · exact .pointed ⟨hempty, hwhole⟩ hdigits hexponent

/-- A decimal of the grammar is taken as a whole. -/
theorem splitDecimal?_of_isDecimal (h : IsDecimal Text.isDigit t) :
    splitDecimal? t = some (t, []) := by
  cases h with
  | whole hdigits hexponent =>
    have hspan := spanDigits_append_of_stop hdigits.2 hexponent.stop
    simp only [splitDecimal?, hspan, splitFraction_of_isExponent hexponent,
      splitExponent_of_isExponent hexponent, List.append_nil]
    exact if_neg fun hempty ↦ hdigits.1 (List.isEmpty_iff.mp hempty.1)
  | @pointed digits fraction exponent hdigits hfraction hexponent =>
    have hspan : spanDigits (digits ++ '.'.toNat :: (fraction ++ exponent)) =
        (digits, '.'.toNat :: (fraction ++ exponent)) :=
      spanDigits_append_of_stop hdigits.2 fun c hc ↦ Option.some.inj hc ▸ by decide
    simp only [splitDecimal?, hspan, splitFraction_pointed hfraction hexponent,
      splitExponent_of_isExponent hexponent, List.append_assoc, List.cons_append]
    exact if_neg fun hempty ↦ hdigits.1 (List.isEmpty_iff.mp hempty.1)
  | @fraction fraction exponent hfraction hexponent =>
    have hspan : spanDigits ([] ++ '.'.toNat :: (fraction ++ exponent)) =
        ([], '.'.toNat :: (fraction ++ exponent)) :=
      spanDigits_append_of_stop (List.forall_mem_nil _) fun c hc ↦ Option.some.inj hc ▸ by decide
    rw [List.nil_append] at hspan
    simp only [splitDecimal?, hspan, splitFraction_pointed hfraction.2 hexponent,
      splitExponent_of_isExponent hexponent, List.nil_append, List.cons_append]
    refine if_neg fun hempty ↦ hfraction.1 (List.length_eq_zero_iff.mp ?_)
    have hlength := hempty.2
    rw [List.length_cons] at hlength
    omega

/-- A decimal has no mark of base 16 behind a zero. -/
theorem splitHex?_of_isDecimal (h : IsDecimal Text.isDigit t) : splitHex? t = none := by
  rw [← Option.not_isSome_iff_eq_none]
  intro hsome
  rcases t with _ | ⟨z, _ | ⟨x, rest⟩⟩
  · cases hsome
  · cases hsome
  · rw [splitHex?, Option.isSome_ite] at hsome
    have hmark : ¬(Text.isDigit x = true ∨ x ∈ decimalMarks) := by
      rcases hsome.2.1 with rfl | rfl <;> decide
    exact hmark (h.subset x (by simp))

/-- **What the lexer takes for a number.** The texts that are a number from end to end. -/
theorem splitNumber?_eq_some_nil_iff : splitNumber? t = some (t, []) ↔ IsNumeral t := by
  constructor
  · intro h
    rcases Option.or_eq_some_iff.mp h with hhex | ⟨-, hdecimal⟩
    · unfold splitHex? at hhex
      split at hhex
      · rename_i z x rest
        obtain ⟨⟨rfl, hmark, hne⟩, heq⟩ := Option.ite_none_right_eq_some.mp hhex
        obtain ⟨heq, -⟩ := Prod.mk.inj (Option.some.inj heq)
        have hrest : rest.takeWhile isHexDigit = rest :=
          (List.cons.inj (List.cons.inj heq).2).2
        rw [hrest] at hne
        refine .hex hmark ⟨hne, List.all_eq_true.mp ?_⟩
        rw [← hrest]
        exact List.all_takeWhile ..
      · cases hhex
    · exact .decimal (isDecimal_of_splitDecimal? hdecimal)
  · rintro (⟨hmark, hne, hdigits⟩ | hdecimal)
    · have htake := List.takeWhile_eq_self_iff.mpr hdigits
      have hdrop := List.dropWhile_eq_nil_iff.mpr hdigits
      simp only [splitNumber?, splitHex?, htake, hdrop]
      rw [if_pos ⟨trivial, hmark, hne⟩, Option.some_or]
    · rw [splitNumber?, splitHex?_of_isDecimal hdecimal, Option.none_or,
        splitDecimal?_of_isDecimal hdecimal]

/-- What the lexer takes off a text for a number is one by itself. -/
theorem isNumeral_of_splitNumber? (h : splitNumber? t = some (w, left)) : IsNumeral w :=
  splitNumber?_eq_some_nil_iff.mp (splitNumber?_alone h)

/-! ## What a number is worth -/

/-- Hexadecimal digits are read for the integer that they denote, however many they are. -/
theorem ofText?_hexadecimal {mark : Nat} {digits : Text}
    (hmark : mark = 'x'.toNat ∨ mark = 'X'.toNat) (hdigits : IsRun isHexDigit digits) :
    Number.ofText? ('0'.toNat :: mark :: digits) = some (.int (radixValue 16 digits)) := by
  have hbase : (mark, 16) ∈ radixMarks := by rcases hmark with rfl | rfl <;> decide
  have hrun : IsRadixRun 16 digits := by
    refine ⟨hdigits.1, fun c hc ↦ ?_⟩
    obtain ⟨d, hd⟩ := Option.isSome_iff_exists.mp (hdigits.2 c hc)
    exact ⟨d, lt_of_hexDigit? hd, hd⟩
  exact Number.ofText?_of_isRadixRun hbase hrun (IsLiteral.radix hbase hrun).trim_eq

/-- A number of a condition has a value, which is not negative. -/
theorem IsNumeral.exists_ofText? (h : IsNumeral t) :
    ∃ x, Number.ofText? t = some x ∧ x.IsNonneg := by
  cases h with
  | hex hmark hdigits => exact ⟨_, ofText?_hexadecimal hmark hdigits, Number.isNonneg_natCast _⟩
  | decimal h => exact Number.exists_ofText?_of_isDecimal h

/-- A number token stands for a number of the condition. -/
theorem exists_numeral_of_isLexeme {value : Option Number} (h : IsLexeme w (.number value)) :
    IsNumeral w ∧ value = Number.ofText? w := by
  rcases lexeme?_cases h with ⟨-, hkind⟩ | ⟨value', hnumber, hkind⟩ | ⟨_, -, hkind⟩ |
    ⟨_, -, hkind⟩ | ⟨_, -, hkind⟩
  · cases hkind
  · obtain ⟨⟨lexeme, rest⟩, hsplit, hlexeme⟩ := Option.map_eq_some_iff.mp hnumber
    obtain ⟨htoken, -, rfl⟩ := Lexeme.mk.inj hlexeme
    obtain rfl : w = lexeme := by simpa using (splitNumber?_append hsplit).1
    exact ⟨isNumeral_of_splitNumber? hsplit, (TokenKind.number.inj (Option.some.inj htoken)).symm⟩
  all_goals cases hkind

/-- The number tokens of a text are its numbers, and no one of them is without a value. -/
theorem exists_numeral_of_mem_tokens {source : Text} {tokens : List Token} {token : Token}
    {value : Option Number} (h : Lexer.tokens source = .ok tokens) (htoken : token ∈ tokens)
    (hkind : token.kind = .number value) :
    ∃ w ∈ lexemes source, IsNumeral w ∧ value = Number.ofText? w := by
  obtain ⟨-, -, kinds, -, -, -, -, hkinds, hwords⟩ := (tokens_eq_ok_iff.mp h).exists_layout
  have hmem : .number value ∈ kinds := by
    have hmap := List.mem_map_of_mem (f := Token.kind) htoken
    rw [hkinds, hkind] at hmap
    simpa using hmap
  obtain ⟨i, hi, hget⟩ := List.getElem_of_mem hmem
  have hlength := hwords.length_eq
  have hlexeme := hwords.get (i := i) (by omega) hi
  simp only [List.get_eq_getElem, hget] at hlexeme
  exact ⟨_, List.getElem_mem _, exists_numeral_of_isLexeme hlexeme⟩

/-- **Every number of a condition denotes one.** The lexer takes as numbers the decimals without a
sign and the hexadecimal digits behind a mark. Each of them has a value, which is not negative;
digits alone, up to the limit on them, and hexadecimal digits of any number denote that very
integer. So no number token of a condition is without a number. -/
theorem numeral_denotes :
    (∀ t, splitNumber? t = some (t, []) ↔ IsNumeral t) ∧
    (∀ t w left, splitNumber? t = some (w, left) → IsNumeral w) ∧
    (∀ t, IsNumeral t → ∃ x, Number.ofText? t = some x ∧ x.IsNonneg) ∧
    (∀ digits, IsRun Text.isDigit digits → digits.length ≤ decimalDigitLimit →
      Number.ofText? digits = some (.int (decimalValue digits))) ∧
    (∀ mark digits, (mark = 'x'.toNat ∨ mark = 'X'.toNat) → IsRun isHexDigit digits →
      Number.ofText? ('0'.toNat :: mark :: digits) = some (.int (radixValue 16 digits))) ∧
    ∀ source tokens, Lexer.tokens source = .ok tokens → ∀ token ∈ tokens,
      ∀ value, token.kind = .number value →
        ∃ w ∈ lexemes source, IsNumeral w ∧ value = Number.ofText? w ∧
          ∃ x, value = some x ∧ x.IsNonneg := by
  refine ⟨fun t ↦ splitNumber?_eq_some_nil_iff, fun t w left ↦ isNumeral_of_splitNumber?,
    fun t ↦ IsNumeral.exists_ofText?, fun digits ↦ Number.ofText?_digits,
    fun mark digits ↦ ofText?_hexadecimal, ?_⟩
  intro source tokens h token htoken value hkind
  obtain ⟨w, hw, hnumeral, rfl⟩ := exists_numeral_of_mem_tokens h htoken hkind
  exact ⟨w, hw, hnumeral, rfl, hnumeral.exists_ofText?⟩

/-- Digits of two scripts write one integer, the digits behind a mark another one, and a point may
stand at either end. -/
theorem numeral_denotes_scripts :
    let source : Text := "0XfF>٤2||7.>.5e1"
    Lexer.tokens source = .ok [⟨.number (some (.int 255)), 0⟩, ⟨.symbol .greater, 4⟩,
      ⟨.number (some (.int 42)), 5⟩, ⟨.symbol .or, 7⟩, ⟨.number (Number.ofText? "7."), 9⟩,
      ⟨.symbol .greater, 11⟩, ⟨.number (Number.ofText? ".5e1"), 12⟩, ⟨.stop, 16⟩] ∧
    Number.ofText? "٤2" = some (.int 42) ∧ Number.ofText? "0XfF" = some (.int 255) ∧
    ∃ x, Number.ofText? "7." = some x ∧ x.IsNonneg := by
  intro source
  obtain ⟨-, htaken, hvalue, hdigits, hhex, -⟩ := numeral_denotes
  refine ⟨by decide +kernel, ?_, ?_, ?_⟩
  · exact hdigits "٤2" ⟨by decide, by decide⟩ (by decide)
  · exact hhex 'X'.toNat "fF" (.inr rfl) ⟨by decide, by decide⟩
  · exact hvalue "7." (htaken "7.>.5e1" "7." ">.5e1" (by decide +kernel))

end MockApi.Lexer
