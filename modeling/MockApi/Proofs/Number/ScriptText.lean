import MockApi.Proofs.Number.Layout
import MockApi.Proofs.Number.Order
import MockApi.Proofs.Number.Shortest

/-!
# Numbers as JavaScript writes them

JavaScript writes a double with the digits of its shortest decimal, with zeros or a point as long as
the point stands between five zeros in front of the digits and 21 digits, and with an exponent
otherwise. This is laid out here from the description of the language, and the notations are
compared with it, digit by digit: they use an exponent for small numbers earlier, an exponent may
have two digits at least, and whole numbers below `10 ^ 21` are written in full.
-/

namespace MockApi

namespace Text

theorem ofNat_injective : Function.Injective ofNat :=
  Function.LeftInverse.injective digitsValue_ofNat

/-- Multiplying by a power of ten adds zeros. -/
theorem ofNat_mul_tenTo {n : Nat} (h : 0 < n) (k : Nat) :
    ofNat (n * Double.tenTo k) = ofNat n ++ List.replicate k '0'.toNat := by
  induction k with
  | zero =>
    have hone : Double.tenTo 0 = 1 := rfl
    rw [hone, Nat.mul_one, List.replicate_zero, List.append_nil]
  | succ k ih =>
    have hpos : 0 < n * Double.tenTo k := Nat.mul_pos h (Nat.pow_pos (by decide))
    have hdigits := Nat.toDigits_append_toDigits (b := 10) (d := 0) (by decide) hpos (by decide)
    have hsucc : n * Double.tenTo (k + 1) = 10 * (n * Double.tenTo k) + 0 := by
      have htenTo : Double.tenTo (k + 1) = Double.tenTo k * 10 := rfl
      rw [htenTo]
      ring
    have hzero : (Nat.toDigits 10 0).map Char.toNat = ['0'.toNat] := rfl
    rw [hsucc, ofNat, ← hdigits, List.map_append, hzero, List.replicate_succ', ← List.append_assoc,
      ← ih]
    rfl

/-- A sign and the digits of a positive number are the integer with that sign. -/
theorem ofInt_signed (negative : Bool) {n : Nat} (h : 0 < n) :
    ofInt (Double.signed negative n) = (if negative then "-" else "") ++ ofNat n := by
  cases negative with
  | false =>
    have hsigned : ¬Double.signed false n < 0 := by
      simp [Double.signed]
    rw [ofInt, if_neg hsigned]
    rfl
  | true =>
    have hsigned : Double.signed true n < 0 := by
      simpa [Double.signed] using h
    rw [ofInt, if_pos hsigned, Double.signed, if_pos rfl, Int.natAbs_neg, Int.natAbs_natCast]
    rfl

end Text

namespace Double

/-! ## The layout of a decimal -/

namespace Decimal

/-- The digits of a decimal with zeros or a point where they are needed. -/
def plainText (d : Decimal) : Text :=
  let digits := Text.ofNat d.coefficient
  if (digits.length : Int) ≤ d.point then
    digits ++ List.replicate (d.point - digits.length).toNat '0'.toNat
  else if 0 < d.point then digits.take d.point.toNat ++ '.'.toNat :: digits.drop d.point.toNat
  else '0'.toNat :: '.'.toNat :: (List.replicate (-d.point).toNat '0'.toNat ++ digits)

/-- The first digit of a decimal, the others behind a point if there are any, and an exponent. -/
def exponentialText (d : Decimal) : Text :=
  let digits := Text.ofNat d.coefficient
  let mantissa := if digits.length = 1 then digits else digits.take 1 ++ '.'.toNat :: digits.drop 1
  mantissa ++ 'e'.toNat :: (if d.point - 1 < 0 then '-'.toNat else '+'.toNat)
    :: Text.ofNat (d.point - 1).natAbs

/-- A decimal as JavaScript lays it out. -/
def scriptText (d : Decimal) : Text :=
  if -5 ≤ d.point ∧ d.point ≤ 21 then d.plainText else d.exponentialText

variable {d : Decimal}

theorem point_eq (d : Decimal) :
    d.point = ((Text.ofNat d.coefficient).length : Int) + d.exponent := by
  rw [Text.length_ofNat]
  rfl

/-- A whole decimal in full. -/
theorem plainText_of_whole (hpos : 0 < d.coefficient) (h : 0 ≤ d.exponent) :
    d.plainText = Text.ofNat (d.coefficient * tenTo d.exponent.toNat) := by
  have hpoint := d.point_eq
  have hzeros : (d.point - (Text.ofNat d.coefficient).length).toNat = d.exponent.toNat := by omega
  rw [plainText, if_pos (by omega), hzeros, Text.ofNat_mul_tenTo hpos]

/-- There is no exponent in a plain text. -/
theorem notMem_plainText (d : Decimal) : 'e'.toNat ∉ d.plainText := by
  have hzeros (n : Nat) : 'e'.toNat ∉ List.replicate n '0'.toNat := fun hmem ↦
    absurd (List.eq_of_mem_replicate hmem) (by decide)
  have hdigits : 'e'.toNat ∉ Text.ofNat d.coefficient := fun hmem ↦
    absurd (Text.isAsciiDigit_of_mem_ofNat hmem) (by decide)
  have hmarks : 'e'.toNat ≠ '.'.toNat ∧ 'e'.toNat ≠ '0'.toNat := by decide
  unfold plainText
  dsimp only
  split
  · rw [List.mem_append, not_or]
    exact ⟨hdigits, hzeros _⟩
  · split
    · rw [List.mem_append, List.mem_cons, not_or, not_or]
      exact ⟨fun hmem ↦ hdigits (List.mem_of_mem_take hmem), hmarks.1,
        fun hmem ↦ hdigits (List.mem_of_mem_drop hmem)⟩
    · rw [List.mem_cons, List.mem_cons, List.mem_append, not_or, not_or, not_or]
      exact ⟨hmarks.2, hmarks.1, hzeros _, hdigits⟩

end Decimal

end Double

/-! ## The layout of the notations -/

namespace DoubleNotation

variable {d : Double.Decimal} {style : DoubleNotation}

/-- The notations lay out decimals with a fraction like JavaScript, where they use no exponent. -/
theorem positional_eq_plainText (h : d.exponent < 0) :
    positional (Text.ofNat d.coefficient) d.point = d.plainText := by
  have hpoint := d.point_eq
  by_cases hpos : 0 < d.point
  · rw [positional, if_neg (not_le.mpr hpos), if_neg (by omega), Double.Decimal.plainText,
      if_neg (by omega), if_pos hpos]
  · rw [positional, if_pos (not_lt.mp hpos), Double.Decimal.plainText, if_neg (by omega),
      if_neg hpos]

theorem mem_scientific (width : Nat) (digits : Text) (exponent : Int) :
    'e'.toNat ∈ scientific width digits exponent :=
  List.mem_append_right _ List.mem_cons_self

/-- The notations lay out decimals with an exponent like JavaScript, as long as they add no zeros to
it. -/
theorem scientific_eq_exponentialText_iff {width : Nat} :
    scientific width (Text.ofNat d.coefficient) (d.point - 1) = d.exponentialText ↔
      width ≤ (Text.ofNat (d.point - 1).natAbs).length := by
  have hshape {digits : Text} (hne : digits ≠ []) (exponent : Int) :
      scientific width digits exponent =
        (if digits.length = 1 then digits else digits.take 1 ++ '.'.toNat :: digits.drop 1)
          ++ 'e'.toNat :: (if exponent < 0 then '-'.toNat else '+'.toNat)
          :: (List.replicate (width - (Text.ofNat exponent.natAbs).length) '0'.toNat
            ++ Text.ofNat exponent.natAbs) := by
    match digits with
    | [] => exact absurd rfl hne
    | [c] => rfl
    | c :: c' :: cs => rfl
  -- up to the zeros in front of the exponent the texts are the same
  rw [hshape (Text.ofNat_ne_nil _), Double.Decimal.exponentialText]
  rw [List.append_cancel_left_eq, List.cons_inj_right, List.cons_inj_right,
    List.append_left_eq_self, List.replicate_eq_nil_iff]
  omega

theorem writeDecimal_eq (style : DoubleNotation) (d : Double.Decimal) : style.writeDecimal d =
    if -3 ≤ d.point ∧ d.point ≤ 16 then positional (Text.ofNat d.coefficient) d.point
    else scientific style.exponentDigits (Text.ofNat d.coefficient) (d.point - 1) := by
  rw [writeDecimal, ← d.point_eq]
  exact if_congr (by omega) rfl rfl

/-- **Where a notation is that of JavaScript**, for decimals that have a fraction or are large. From
21 digits in front of the point on there is an exponent in both; of small decimals some have an
exponent in the notation only, and some have zeros in it. -/
theorem writeDecimal_eq_scriptText_iff (h : d.exponent < 0 ∧ d.point ≤ 16 ∨ 21 < d.point) :
    style.writeDecimal d = d.scriptText ↔ -3 ≤ d.point ∧ d.point ≤ 16 ∨
      (d.point < -5 ∨ 21 < d.point) ∧
        style.exponentDigits ≤ (Text.ofNat (d.point - 1).natAbs).length := by
  rw [writeDecimal_eq, Double.Decimal.scriptText]
  by_cases hplain : -3 ≤ d.point ∧ d.point ≤ 16
  · rw [if_pos hplain, if_pos (by omega)]
    exact iff_of_true (positional_eq_plainText (by omega)) (.inl hplain)
  · rw [if_neg hplain]
    by_cases hscript : -5 ≤ d.point ∧ d.point ≤ 21
    · -- only the text of the notation has an exponent
      rw [if_pos hscript]
      refine iff_of_false (fun heq ↦ d.notMem_plainText (heq ▸ mem_scientific _ _ _)) ?_
      omega
    · rw [if_neg hscript, scientific_eq_exponentialText_iff, or_iff_right hplain, and_iff_right]
      omega

theorem one_le_length_ofNat (n : Nat) : 1 ≤ (Text.ofNat n).length :=
  List.length_pos_of_ne_nil (Text.ofNat_ne_nil n)

theorem two_le_length_ofNat_iff {n : Nat} : 2 ≤ (Text.ofNat n).length ↔ 10 ≤ n := by
  have hone := Nat.length_toDigits_le_iff (b := 10) (n := n) (k := 1) (by decide) (by decide)
  rw [Text.length_ofNat]
  omega

/-- Substituted values differ where JavaScript uses no exponent yet. -/
theorem writeDecimal_display_iff (h : d.exponent < 0 ∧ d.point ≤ 16 ∨ 21 < d.point) :
    display.writeDecimal d = d.scriptText ↔ ¬(-5 ≤ d.point ∧ d.point ≤ -4) := by
  have hwidth : display.exponentDigits ≤ (Text.ofNat (d.point - 1).natAbs).length :=
    one_le_length_ofNat _
  rw [writeDecimal_eq_scriptText_iff h, and_iff_left hwidth]
  omega

/-- Documents differ there as well, and where the exponent has one digit only. -/
theorem writeDecimal_json_iff (h : d.exponent < 0 ∧ d.point ≤ 16 ∨ 21 < d.point) :
    json.writeDecimal d = d.scriptText ↔ ¬(-8 ≤ d.point ∧ d.point ≤ -4) := by
  have hwidth : json.exponentDigits ≤ (Text.ofNat (d.point - 1).natAbs).length ↔
      10 ≤ (d.point - 1).natAbs := two_le_length_ofNat_iff
  rw [writeDecimal_eq_scriptText_iff h, hwidth]
  omega

/-- Substituted values and documents differ where an exponent has one digit only. -/
theorem writeDecimal_display_eq_json_iff :
    display.writeDecimal d = json.writeDecimal d ↔ ¬(-8 ≤ d.point ∧ d.point ≤ -4) := by
  have hdisplay : scientific display.exponentDigits (Text.ofNat d.coefficient) (d.point - 1) =
      d.exponentialText := scientific_eq_exponentialText_iff.mpr (one_le_length_ofNat _)
  have hwidth : json.exponentDigits ≤ (Text.ofNat (d.point - 1).natAbs).length ↔
      10 ≤ (d.point - 1).natAbs := two_le_length_ofNat_iff
  rw [writeDecimal_eq, writeDecimal_eq]
  by_cases hplain : -3 ≤ d.point ∧ d.point ≤ 16
  · rw [if_pos hplain, if_pos hplain]
    exact iff_of_true rfl (by omega)
  · rw [if_neg hplain, if_neg hplain, hdisplay, eq_comm, scientific_eq_exponentialText_iff, hwidth]
    omega

end DoubleNotation

namespace Double

/-! ## The text of a double -/

/-- The text of a double in JavaScript. -/
def scriptText : Double → Text
  | .nan => "NaN"
  | .infinite negative => if negative then "-Infinity" else "Infinity"
  | .finite negative m e =>
    if m = 0 then "0" else (if negative then "-" else "") ++ (shortest m e).scriptText

section Whole

variable {negative : Bool} {m n : Nat} {e : Int}

theorem toInt?_eq_some_iff_signed {k : Int} : (Double.finite negative m e).toInt? = some k ↔
    ∃ n : Nat, (n : ℚ) = m * 2 ^ e ∧ signed negative n = k := by
  rw [toInt?_eq_some_iff, extended?, Option.some_inj, WithBot.coe_inj, WithTop.coe_inj]
  constructor
  · intro heq
    have hpos : (0 : ℚ) ≤ m * 2 ^ e := by positivity
    cases negative with
    | false =>
      have hk : (k : ℚ) = m * 2 ^ e := by simpa [signed] using heq.symm
      have hsign : 0 ≤ k := by exact_mod_cast hk ▸ hpos
      obtain ⟨n, rfl⟩ := Int.eq_ofNat_of_zero_le hsign
      exact ⟨n, by exact_mod_cast hk, rfl⟩
    | true =>
      have hk : ((-k : Int) : ℚ) = m * 2 ^ e := by
        rw [Int.cast_neg, ← heq]
        simp [signed]
      have hsign : 0 ≤ -k := by exact_mod_cast hk ▸ hpos
      obtain ⟨n, hn⟩ := Int.eq_ofNat_of_zero_le hsign
      obtain rfl : k = -(n : Int) := by omega
      exact ⟨n, by simpa using hk, rfl⟩
  · rintro ⟨n, hn, rfl⟩
    cases negative <;> simp [signed, hn]

theorem natAbs_signed (negative : Bool) (n : Nat) : (signed negative n).natAbs = n := by
  cases negative <;> simp [signed]

/-- Whole doubles below `10 ^ 21` are written as integers. -/
theorem filter_toInt?_of_whole (hn : (n : ℚ) = m * 2 ^ e) (hlt : n < tenTo 21) :
    (Double.finite negative m e).toInt?.filter (·.natAbs < tenTo 21)
      = some (signed negative n) := by
  have hint : (Double.finite negative m e).toInt? = some (signed negative n) :=
    toInt?_eq_some_iff_signed.mpr ⟨n, hn, rfl⟩
  rw [hint, Option.filter_some_pos (by simpa [natAbs_signed] using hlt)]

theorem filter_toInt?_of_not_whole (h : ¬∃ n : Nat, (n : ℚ) = m * 2 ^ e ∧ n < tenTo 21) :
    (Double.finite negative m e).toInt?.filter (·.natAbs < tenTo 21) = none := by
  rw [Option.filter_eq_none_iff]
  intro k hk hsmall
  obtain ⟨n, hn, rfl⟩ := toInt?_eq_some_iff_signed.mp hk
  exact h ⟨n, hn, by simpa [natAbs_signed] using hsmall⟩

/-- The shortest decimal of a double that is not written as an integer has a fraction, or at least
22 digits in front of the point. -/
theorem shortest_of_not_whole (hm : 0 < m) (h : IsCanonical m e)
    (hwhole : ¬∃ n : Nat, (n : ℚ) = m * 2 ^ e ∧ n < tenTo 21) :
    (shortest m e).exponent < 0 ∧ (shortest m e).point ≤ 16 ∨ 21 < (shortest m e).point := by
  by_cases hany : ∃ n : Nat, (n : ℚ) = m * 2 ^ e
  · obtain ⟨n, hn⟩ := hany
    have hlarge : 10 ^ 21 ≤ n := not_lt.mp fun hlt ↦ hwhole ⟨n, hn, hlt⟩
    refine .inr ((lt_point_shortest_iff hm h).mpr ?_)
    rw [← hn]
    exact_mod_cast hlarge
  · exact .inl ⟨not_le.mp (mt (exponent_shortest_nonneg_iff hm h).mp hany),
      point_shortest_le hm h hany⟩

/-- The shortest decimal of a double that is written as an integer has no fraction and at most 21
digits in front of the point. -/
theorem shortest_of_whole (hm : 0 < m) (h : IsCanonical m e) (hn : (n : ℚ) = m * 2 ^ e)
    (hlt : n < tenTo 21) : 0 ≤ (shortest m e).exponent ∧ (shortest m e).point ≤ 21 := by
  refine ⟨(exponent_shortest_nonneg_iff hm h).mpr ⟨n, hn⟩, not_lt.mp fun hpoint ↦ ?_⟩
  have hlarge := (lt_point_shortest_iff hm h).mp hpoint
  rw [← hn] at hlarge
  have hnat : 10 ^ 21 ≤ n := by exact_mod_cast hlarge
  exact absurd hlt (not_lt.mpr hnat)

theorem one_le_point_shortest (h : IsCanonical m e) (hn : (n : ℚ) = m * 2 ^ e)
    (hlt : n < tenTo 21) : 1 ≤ (shortest m e).point := by
  rcases Nat.eq_zero_or_pos m with rfl | hm
  · rw [h.eq_of_zero, shortest_zero]
    decide
  · have hlength : 0 < (Nat.toDigits 10 (shortest m e).coefficient).length :=
      List.length_pos_of_ne_nil (by simp)
    have hexponent := (shortest_of_whole hm h hn hlt).1
    rw [Decimal.point]
    omega

/-- A whole double is written in full by JavaScript just if it is its own shortest decimal. -/
theorem ofInt_eq_scriptText_iff (h : IsCanonical m e) (hn : (n : ℚ) = m * 2 ^ e)
    (hlt : n < tenTo 21) : Text.ofInt (signed negative n) = scriptText (.finite negative m e) ↔
      (shortest m e).value = n := by
  have hfront := one_le_point_shortest h hn hlt
  rcases Nat.eq_zero_or_pos m with rfl | hm
  · obtain rfl : n = 0 := by simpa using hn
    have hsigned : signed negative 0 = 0 := by cases negative <;> rfl
    rw [hsigned, h.eq_of_zero, shortest_zero]
    exact iff_of_true rfl (by simp [Decimal.value])
  · obtain ⟨hexponent, hpoint⟩ := shortest_of_whole hm h hn hlt
    have hplain : -5 ≤ (shortest m e).point ∧ (shortest m e).point ≤ 21 := by omega
    have hpos : 0 < n := by
      have hcast : (0 : ℚ) < n := by
        rw [hn]
        positivity
      exact_mod_cast hcast
    rw [Text.ofInt_signed negative hpos, scriptText, if_neg hm.ne', Decimal.scriptText,
      if_pos hplain, Decimal.plainText_of_whole (coefficient_shortest_pos hm h) hexponent,
      List.append_cancel_left_eq, Text.ofNat_injective.eq_iff, value_eq_natCast hexponent,
      Nat.cast_inj, eq_comm]

end Whole

end Double

/-! ## Doubles in the notations -/

namespace DoubleNotation

variable {style : DoubleNotation} {negative : Bool} {m n : Nat} {e : Int}

/-- The notation of documents, with whole numbers as integers. -/
def document : DoubleNotation := { json with wholeAsInteger := true }

theorem write_of_whole (hstyle : style.wholeAsInteger = true) (hn : (n : ℚ) = m * 2 ^ e)
    (hlt : n < Double.tenTo 21) :
    style.write (.finite negative m e) = Text.ofInt (Double.signed negative n) := by
  rw [write, integer?, if_pos hstyle, Double.filter_toInt?_of_whole hn hlt]

theorem write_of_not_whole (hstyle : style.wholeAsInteger = true)
    (hwhole : ¬∃ n : Nat, (n : ℚ) = m * 2 ^ e ∧ n < Double.tenTo 21) :
    style.write (.finite negative m e)
      = (if negative then "-" else "") ++ style.writeDecimal (Double.shortest m e) := by
  have hm : m ≠ 0 := by
    rintro rfl
    exact hwhole ⟨0, by simp, by decide⟩
  rw [write, integer?, if_pos hstyle, Double.filter_toInt?_of_not_whole hwhole]
  simp only [if_neg hm]

/-- **Where doubles are written like in JavaScript**, in a notation with whole numbers as integers
that differs on decimals from `low` on. -/
theorem write_eq_scriptText_iff (hstyle : style.wholeAsInteger = true) {low : Int}
    (hdecimal : ∀ d : Double.Decimal, d.exponent < 0 ∧ d.point ≤ 16 ∨ 21 < d.point →
      (style.writeDecimal d = d.scriptText ↔ ¬(low ≤ d.point ∧ d.point ≤ -4)))
    (h : Double.IsCanonical m e) :
    style.write (.finite negative m e) = Double.scriptText (.finite negative m e) ↔
      (∀ n : Nat, (n : ℚ) = m * 2 ^ e → n < Double.tenTo 21 → (Double.shortest m e).value = n) ∧
        ¬(low ≤ (Double.shortest m e).point ∧ (Double.shortest m e).point ≤ -4) := by
  by_cases hwhole : ∃ n : Nat, (n : ℚ) = m * 2 ^ e ∧ n < Double.tenTo 21
  · obtain ⟨n, hn, hlt⟩ := hwhole
    have hpoint := Double.one_le_point_shortest h hn hlt
    have hvalue : (∀ i : Nat, (i : ℚ) = m * 2 ^ e → i < Double.tenTo 21 →
        (Double.shortest m e).value = i) ↔ (Double.shortest m e).value = n := by
      refine ⟨fun hall ↦ hall n hn hlt, fun hsame i hi _ ↦ ?_⟩
      rw [hsame, hn, hi]
    -- the point stands behind a digit, so the second condition is void
    rw [write_of_whole hstyle hn hlt, Double.ofInt_eq_scriptText_iff h hn hlt, hvalue,
      and_iff_left (by omega)]
  · have hm : 0 < m := by
      refine Nat.pos_of_ne_zero ?_
      rintro rfl
      exact hwhole ⟨0, by simp, by decide⟩
    have hscript : Double.scriptText (.finite negative m e)
        = (if negative then "-" else "") ++ (Double.shortest m e).scriptText := if_neg hm.ne'
    have hnone : ∀ n : Nat, (n : ℚ) = m * 2 ^ e → n < Double.tenTo 21 →
        (Double.shortest m e).value = n := fun n hn hlt ↦ absurd ⟨n, hn, hlt⟩ hwhole
    rw [hscript, write_of_not_whole hstyle hwhole, List.append_cancel_left_eq,
      hdecimal _ (Double.shortest_of_not_whole hm h hwhole), and_iff_right hnone]

/-- Where substituted values and documents have the same text. -/
theorem write_display_eq_document_iff (h : Double.IsCanonical m e) :
    display.write (.finite negative m e) = document.write (.finite negative m e) ↔
      ¬(-8 ≤ (Double.shortest m e).point ∧ (Double.shortest m e).point ≤ -4) := by
  by_cases hwhole : ∃ n : Nat, (n : ℚ) = m * 2 ^ e ∧ n < Double.tenTo 21
  · obtain ⟨n, hn, hlt⟩ := hwhole
    rw [write_of_whole rfl hn hlt, write_of_whole rfl hn hlt]
    have hpoint := Double.one_le_point_shortest h hn hlt
    exact iff_of_true rfl (by omega)
  · rw [write_of_not_whole rfl hwhole, write_of_not_whole rfl hwhole, List.append_cancel_left_eq]
    exact writeDecimal_display_eq_json_iff

end DoubleNotation

end MockApi
