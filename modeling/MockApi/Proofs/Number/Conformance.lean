import MockApi.Proofs.Number.Recognition

/-!
# Numerals against the grammar of JavaScript

The lenient reading is meant to take the numeric strings of JavaScript, and how far it does is told
by three kinds of code points and one shape. Information separators, NEXT LINE and the digits of
other scripts are taken though the grammar has none of them, the byte order mark is white space of
the grammar only, and a binary literal may have its mark twice. Apart from these, the texts read and
the numeric strings are the same, and integers are read for what they write.
-/

namespace MockApi

/-! ## Two kinds of white space -/

namespace Numeral

variable {c : Nat} {t : Text}

/-- What literals over the digits of all scripts consist of is no white space of either kind. -/
theorem not_space_of_visible (h : Text.isDigit c = true ∨ (0x20 < c ∧ c < 0x7F)) :
    Text.isBlank c = false ∧ isScriptSpace c = false ∧ c ≠ 0xFEFF := by
  have hspaces : ∀ r ∈ scriptSpaceRanges, ∀ z ∈ Text.digitZeros, r.2 < z ∨ z + 10 ≤ r.1 := by
    decide
  have hvisible : ∀ r ∈ scriptSpaceRanges, r.2 ≤ 0x20 ∨ 0x7F ≤ r.1 := by decide
  have hscript : isScriptSpace c = false := by
    rw [isScriptSpace, List.any_eq_false]
    intro r hr
    rw [Bool.and_eq_true, decide_eq_true_eq, decide_eq_true_eq]
    rcases h with hdigit | ⟨hlow, hhigh⟩
    · obtain ⟨z, hz, hlow, hhigh⟩ := Text.isDigit_iff.mp hdigit
      have := hspaces r hr z hz
      omega
    · have := hvisible r hr
      omega
  refine ⟨?_, hscript, ?_⟩
  · rcases h with hdigit | ⟨hlow, hhigh⟩
    · exact Text.isBlank_eq_false_of_isDigitLike (by rw [Text.isDigitLike, hdigit]; rfl)
    · exact Text.isBlank_eq_false hlow hhigh
  · rintro rfl
    exact absurd hscript (by decide)

/-- White space of the reading is white space of JavaScript, the foreign kind apart. -/
theorem isScriptSpace_of_isBlank (h : Text.isBlank c = true) (hplain : isForeign c = false) :
    isScriptSpace c = true := by
  simp only [isForeign, Text.isBlank, isScriptSpace, Text.blankRanges, scriptSpaceRanges,
    List.any_cons, List.any_nil] at *
  grind

/-- White space of JavaScript is white space of the reading, the byte order mark apart. -/
theorem isBlank_of_isScriptSpace (h : isScriptSpace c = true) (hmark : c ≠ 0xFEFF) :
    Text.isBlank c = true := by
  simp only [Text.isBlank, isScriptSpace, Text.blankRanges, scriptSpaceRanges,
    List.any_cons, List.any_nil] at *
  grind

theorem isAsciiDigit_of_not_foreign (h : isForeign c = false) (hdigit : Text.isDigit c = true) :
    Text.isAsciiDigit c = true := by
  rw [isForeign, hdigit, Bool.or_eq_false_iff] at h
  simpa using h.2

/-- Numeric strings have no foreign code points. -/
theorem IsNumeric.not_foreign (h : IsNumeric t) (hc : c ∈ t) : isForeign c = false := by
  have hzeros : ∀ z ∈ Text.digitZeros, z = 0x30 ∨ 0x7F ≤ z := by decide
  rcases Text.mem_trimWhile_or (p := isScriptSpace) hc with hmem | hspace
  · have hrange : 0x20 < c ∧ c < 0x7F := by
      rcases IsLiteral.visible h c hmem with hdigit | hrange
      · have := Text.isAsciiDigit_iff.mp hdigit
        omega
      · exact hrange
    have hdigit : Text.isDigit c = true → Text.isAsciiDigit c = true := by
      intro hdigit
      obtain ⟨z, hz, hlow, hhigh⟩ := Text.isDigit_iff.mp hdigit
      rw [Text.isAsciiDigit_iff]
      have := hzeros z hz
      omega
    simp only [isForeign, Bool.or_eq_false_iff, Bool.and_eq_false_imp, decide_eq_true_eq,
      decide_eq_false_iff_not, Bool.not_eq_false']
    exact ⟨⟨by omega, by omega⟩, hdigit⟩
  · have hdigit : Text.isDigit c = false := by
      rw [Bool.eq_false_iff]
      intro hdigit
      have hnot := (not_space_of_visible (.inl hdigit)).2.1
      rw [hspace] at hnot
      cases hnot
    rw [isForeign, hdigit]
    simp only [isScriptSpace, scriptSpaceRanges, List.any_cons, List.any_nil] at hspace
    grind

/-- Without a byte order mark, numeric strings are trimmed alike. -/
theorem IsNumeric.trim_eq (h : IsNumeric t) (hmark : 0xFEFF ∉ t) :
    t.trim = Text.trimWhile isScriptSpace t := by
  refine Text.trimWhile_congr (fun c hc hspace ↦ ?_) fun c hc ↦ ?_
  · exact isBlank_of_isScriptSpace hspace fun heq ↦ hmark (heq ▸ hc)
  · exact (not_space_of_visible
      ((IsLiteral.visible h c hc).imp_left Text.isDigit_of_isAsciiDigit)).1

end Numeral

namespace Number

open Numeral

variable {t : Text}

/-- What is read consists of digits and visible ASCII, white space apart. -/
theorem visible_of_ofText? {x : Number} (h : ofText? t = some x) :
    ∀ c ∈ t.trim, Text.isDigit c = true ∨ (0x20 < c ∧ c < 0x7F) := by
  rcases exists_ofText?_iff.mp ⟨x, h⟩ with hliteral | hmarks
  · exact hliteral.visible
  · obtain ⟨mark, digits, -, -, hparts⟩ := hmarks.exists_radixParts?
    obtain ⟨mark', hmark', -, hdigits, htrim⟩ := radixParts?_eq_some_iff.mp hparts
    rw [htrim]
    exact fun c hc ↦ .inr (visible_of_mark hmark' hdigits c hc)

/-- ASCII digits with a sign or without one are read as they are in base ten. -/
theorem ofText?_of_isRun {sign digits : Text} (hsign : IsSign sign)
    (hdigits : IsRun Text.isAsciiDigit digits) (hlength : digits.length ≤ decimalDigitLimit)
    (htrim : t.trim = sign ++ digits) :
    ofText? t = some (.int (if sign = ['-'.toNat] then -(radixValue 10 digits)
      else radixValue 10 digits)) := by
  have hrun : IsRun Text.isDigit digits := hdigits.imp fun c _ ↦ Text.isDigit_of_isAsciiDigit
  rw [ofText?_of_digits hsign hrun hlength htrim, digitsValue_eq_radixValue hdigits.2]

/-- **The lenient reading and the grammar of numeric strings.** What is read is a numeric string
unless it has foreign code points or two marks; a numeric string is read unless a byte order mark
stands at its ends. Digits, up to the limit on them, and literals of a marked base are read as the
integers that they write. -/
theorem ofText?_grammar (t : Text) :
    (∀ x, ofText? t = some x →
      (IsNumeric t ↔ (∀ c ∈ t, isForeign c = false) ∧ ¬HasTwoMarks t.trim)) ∧
    (IsNumeric t → ((∃ x, ofText? t = some x) ↔ 0xFEFF ∉ t)) ∧
    (0xFEFF ∉ t → ∀ sign digits, IsSign sign → IsRun Text.isAsciiDigit digits →
      digits.length ≤ decimalDigitLimit → Text.trimWhile isScriptSpace t = sign ++ digits →
      ofText? t = some (.int (if sign = ['-'.toNat] then -(radixValue 10 digits)
        else radixValue 10 digits))) ∧
    (0xFEFF ∉ t → ∀ mark base digits, (mark, base) ∈ radixMarks → IsRadixRun base digits →
      Text.trimWhile isScriptSpace t = '0'.toNat :: mark :: digits →
      ofText? t = some (.int (radixValue base digits))) := by
  refine ⟨fun x hx ↦ ?_, fun h ↦ ?_, ?_, ?_⟩
  · have hvisible := visible_of_ofText? hx
    have hsame (hplain : ∀ c ∈ t, isForeign c = false) :
        Text.trimWhile isScriptSpace t = t.trim :=
      Text.trimWhile_congr (fun c hc hblank ↦ isScriptSpace_of_isBlank hblank (hplain c hc))
        fun c hc ↦ (not_space_of_visible (hvisible c hc)).2.1
    constructor
    · intro h
      have hplain : ∀ c ∈ t, isForeign c = false := fun c ↦ h.not_foreign
      refine ⟨hplain, fun hmarks ↦ hmarks.not_isLiteral ?_⟩
      rw [← hsame hplain]
      exact IsLiteral.imp h fun c _ ↦ Text.isDigit_of_isAsciiDigit
    · rintro ⟨hplain, hmarks⟩
      have hliteral := (exists_ofText?_iff.mp ⟨x, hx⟩).resolve_right hmarks
      rw [IsNumeric, hsame hplain]
      exact hliteral.imp fun c hc ↦
        isAsciiDigit_of_not_foreign (hplain c (Text.mem_of_mem_trimWhile hc))
  · constructor
    · rintro ⟨x, hx⟩ hmem
      rcases Text.mem_trimWhile_or (p := Text.isBlank) hmem with hcore | hblank
      · exact (not_space_of_visible (visible_of_ofText? hx _ hcore)).2.2 rfl
      · exact absurd hblank (by decide)
    · intro hmark
      rw [exists_ofText?_iff, h.trim_eq hmark]
      exact .inl (IsLiteral.imp h fun c _ ↦ Text.isDigit_of_isAsciiDigit)
  · intro hmark sign digits hsign hdigits hlength htrim
    have h : IsNumeric t := by
      rw [IsNumeric, htrim]
      exact .decimal hsign (.of_isRun hdigits)
    exact ofText?_of_isRun hsign hdigits hlength ((h.trim_eq hmark).trans htrim)
  · intro hmark mark base digits hbase hdigits htrim
    have h : IsNumeric t := by
      rw [IsNumeric, htrim]
      exact .radix hbase hdigits
    exact ofText?_of_isRadixRun hbase hdigits ((h.trim_eq hmark).trans htrim)

/-- Each departure from the grammar happens: two marks, a digit of another script and a separator
are read, and a byte order mark is not. -/
theorem ofText?_departures :
    (ofText? ↑"0b0b1" = some (.int 1) ∧ ¬IsNumeric ↑"0b0b1") ∧
    (ofText? [0x663] = some (.int 3) ∧ ¬IsNumeric [0x663]) ∧
    (ofText? [0x1C, 0x35] = some (.int 5) ∧ ¬IsNumeric [0x1C, 0x35]) ∧
    (ofText? [0xFEFF, 0x35] = none ∧ IsNumeric [0xFEFF, 0x35]) := by
  have hforeign {c : Nat} {t : Text} (hc : c ∈ t) (h : isForeign c = true) : ¬IsNumeric t := by
    intro hnumeric
    rw [hnumeric.not_foreign hc] at h
    cases h
  refine ⟨⟨by decide +kernel, ?_⟩, ⟨by decide +kernel, hforeign (c := 0x663) (by simp) (by decide)⟩,
    ⟨by decide +kernel, hforeign (c := 0x1C) (by simp) (by decide)⟩, by decide +kernel, ?_⟩
  · intro h
    have hmarks : HasTwoMarks (Text.trimWhile isScriptSpace ↑"0b0b1") :=
      ⟨'b'.toNat, 'b'.toNat, ↑"1", by decide, by decide, ⟨by decide, by decide⟩, by decide⟩
    exact hmarks.not_isLiteral (IsLiteral.imp h fun c _ ↦ Text.isDigit_of_isAsciiDigit)
  · have hfive : IsRun Text.isAsciiDigit [0x35] := ⟨by decide, by decide⟩
    exact .decimal (.inl rfl) (.of_isRun hfive)

end Number

end MockApi
