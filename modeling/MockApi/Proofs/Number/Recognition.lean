import MockApi.Proofs.Number.Grammar

/-!
# Recognizing numerals

The lenient reading goes by the grammar, over the digits of all scripts: what it takes for an
exponent or a decimal is one, and every one is taken. Behind a marked base it takes the digits of
hexadecimal first and asks afterwards what they are worth, which is how a second mark gets in. So
the texts that are read are the literals and the binary literals with two marks.
-/

namespace MockApi

namespace Numeral

/-! ## Decimals -/

section Decimal

variable {sign t : Text}

theorem ne_sign_of_isDigit {c : Nat} (h : Text.isDigit c = true) :
    c ≠ '-'.toNat ∧ c ≠ '+'.toNat := by
  constructor <;> rintro rfl <;> exact absurd h (by decide)

/-- A sign is split off in front of what has none. -/
theorem splitSign_append (hsign : IsSign sign)
    (ht : ∀ c ∈ t.head?, c ≠ '-'.toNat ∧ c ≠ '+'.toNat) :
    splitSign (sign ++ t) = (decide (sign = ['-'.toNat]), t) := by
  rcases hsign with rfl | rfl | rfl
  · cases t with
    | nil => rfl
    | cons c t =>
      obtain ⟨hminus, hplus⟩ := ht c rfl
      rw [List.nil_append, splitSign, if_neg hminus, if_neg hplus]
      rfl
  · rfl
  · rfl

theorem exists_eq_append_splitSign (t : Text) :
    ∃ sign, IsSign sign ∧ t = sign ++ (splitSign t).2 := by
  unfold splitSign
  split
  · rename_i c rest
    split
    · rename_i hc
      exact ⟨[c], .inr (.inr (by rw [hc])), rfl⟩
    split
    · rename_i hc
      exact ⟨[c], .inr (.inl (by rw [hc])), rfl⟩
    · exact ⟨[], .inl rfl, rfl⟩
  · exact ⟨[], .inl rfl, rfl⟩

/-- The reading of an exponent succeeds exactly on the exponents. -/
theorem isSome_exponent?_iff : (exponent? t).isSome = true ↔ IsExponent Text.isDigit t := by
  constructor
  · intro h
    cases t with
    | nil => exact .absent
    | cons mark rest =>
      rw [exponent?, Option.isSome_ite] at h
      obtain ⟨hmark, hne, hall⟩ := h
      obtain ⟨sign, hsign, hrest⟩ := exists_eq_append_splitSign rest
      rw [hrest]
      exact .present hmark hsign ⟨hne, List.all_eq_true.mp hall⟩
  · intro h
    cases h with
    | absent => rfl
    | present hmark hsign hdigits =>
      have hsplit := splitSign_append hsign fun c hc ↦
        ne_sign_of_isDigit (hdigits.2 c (List.mem_of_mem_head? hc))
      simp only [exponent?, hsplit, Option.isSome_ite]
      exact ⟨hmark, hdigits.1, List.all_eq_true.mpr hdigits.2⟩

theorem eq_append_spanDigits (t : Text) : t = (spanDigits t).1 ++ (spanDigits t).2 :=
  List.takeWhile_append_dropWhile.symm

/-- Digits end where an exponent starts. -/
theorem IsExponent.stop (h : IsExponent Text.isDigit t) :
    ∀ c ∈ t.head?, Text.isDigit c = false := by
  intro c hc
  rcases h.head? c hc with rfl | rfl <;> decide

/-- A decimal does not start with a sign. -/
theorem IsDecimal.head? (h : IsDecimal Text.isDigit t) :
    ∀ c ∈ t.head?, c ≠ '-'.toNat ∧ c ≠ '+'.toNat := by
  have hrun {digits rest : Text} (hdigits : IsRun Text.isDigit digits) :
      ∀ c ∈ (digits ++ rest).head?, c ≠ '-'.toNat ∧ c ≠ '+'.toNat := by
    obtain ⟨d, digits, rfl⟩ := List.exists_cons_of_ne_nil hdigits.1
    intro c hc
    cases hc
    exact ne_sign_of_isDigit (hdigits.2 d List.mem_cons_self)
  cases h with
  | whole hdigits _ => exact hrun hdigits
  | pointed hdigits _ _ => exact hrun hdigits
  | fraction _ _ => simp

/-- The reading of a decimal takes the sign, the digits and the exponent off it. -/
theorem decimal?_whole {digits exponent : Text} (hsign : IsSign sign)
    (hdigits : IsRun Text.isDigit digits) (hexponent : IsExponent Text.isDigit exponent) :
    decimal? (sign ++ (digits ++ exponent)) = (exponent? exponent).map fun e ↦
      ⟨decide (sign = ['-'.toNat]), digits, none, e⟩ := by
  have hsplit := splitSign_append hsign (IsDecimal.whole hdigits hexponent).head?
  have hspan := spanDigits_append_of_stop hdigits.2 hexponent.stop
  have hwhole : ¬(digits.isEmpty = true) := by simpa using hdigits.1
  cases hexponent with
  | absent =>
    simp only [decimal?, hsplit, hspan]
    exact if_neg fun hempty ↦ hwhole hempty.1
  | present hmark _ _ =>
    have hpoint : ∀ mark, mark = 'e'.toNat ∨ mark = 'E'.toNat → mark ≠ '.'.toNat := by
      rintro mark (rfl | rfl) <;> decide
    simp only [decimal?, hsplit, hspan, if_neg (hpoint _ hmark)]
    exact if_neg fun hempty ↦ hwhole hempty.1

theorem decimal?_pointed {digits fraction exponent : Text} (hsign : IsSign sign)
    (hhead : ∀ c ∈ (digits ++ '.'.toNat :: (fraction ++ exponent)).head?,
      c ≠ '-'.toNat ∧ c ≠ '+'.toNat)
    (hdigits : ∀ c ∈ digits, Text.isDigit c = true)
    (hfraction : ∀ c ∈ fraction, Text.isDigit c = true) (hne : digits ≠ [] ∨ fraction ≠ [])
    (hexponent : IsExponent Text.isDigit exponent) :
    decimal? (sign ++ (digits ++ '.'.toNat :: (fraction ++ exponent))) =
      (exponent? exponent).map fun e ↦
        ⟨decide (sign = ['-'.toNat]), digits, some fraction, e⟩ := by
  have hsplit := splitSign_append hsign hhead
  have hspan : spanDigits (digits ++ '.'.toNat :: (fraction ++ exponent)) =
      (digits, '.'.toNat :: (fraction ++ exponent)) :=
    spanDigits_append_of_stop hdigits (by simp; decide)
  have hspan' := spanDigits_append_of_stop hfraction hexponent.stop
  simp only [decimal?, hsplit, hspan, hspan', if_pos]
  refine if_neg fun hempty ↦ ?_
  simp only [Option.getD_some, List.isEmpty_iff] at hempty
  exact hne.elim (fun h ↦ h hempty.1) fun h ↦ h hempty.2

/-- What is read behind a point, with digits in front of it or behind it, is a decimal. -/
theorem isDecimal_of_pointed {whole rest : Text} (hwhole : ∀ c ∈ whole, Text.isDigit c = true)
    (hne : ¬(whole.isEmpty = true ∧ (spanDigits rest).1.isEmpty = true))
    (hexponent : IsExponent Text.isDigit (spanDigits rest).2) :
    IsDecimal Text.isDigit (whole ++ '.'.toNat :: rest) := by
  have hfraction := isDigit_of_mem_spanDigits rest
  rw [eq_append_spanDigits rest]
  by_cases hnone : whole = []
  · rw [hnone, List.nil_append]
    have hrun : (spanDigits rest).1 ≠ [] := by simpa [hnone] using hne
    exact .fraction ⟨hrun, hfraction⟩ hexponent
  · exact .pointed ⟨hnone, hwhole⟩ hfraction hexponent

/-- What the reading of a decimal takes behind the sign is one. -/
theorem isDecimal_of_isSome_decimal? (h : (decimal? t).isSome = true) :
    IsDecimal Text.isDigit (splitSign t).2 := by
  have hdigits := isDigit_of_mem_spanDigits (splitSign t).2
  rw [eq_append_spanDigits (splitSign t).2]
  simp only [decimal?] at h
  generalize spanDigits (splitSign t).2 = parts at h hdigits ⊢
  obtain ⟨whole, rest⟩ := parts
  -- what follows the digits is nothing, a point or an exponent
  cases rest with
  | nil =>
    dsimp only at h
    split at h
    · cases h
    · rename_i hempty
      have hne : whole ≠ [] := by simpa using hempty
      exact .whole ⟨hne, hdigits⟩ .absent
  | cons c rest =>
    by_cases hc : c = '.'.toNat
    · simp only [if_pos hc] at h
      split at h
      · cases h
      · rename_i hempty
        rw [Option.isSome_map, isSome_exponent?_iff] at h
        rw [hc]
        exact isDecimal_of_pointed hdigits hempty h
    · simp only [if_neg hc] at h
      split at h
      · cases h
      · rename_i hempty
        rw [Option.isSome_map, isSome_exponent?_iff] at h
        have hne : whole ≠ [] := by simpa using hempty
        exact .whole ⟨hne, hdigits⟩ h

theorem isSome_decimal?_of_isDecimal (hsign : IsSign sign) (h : IsDecimal Text.isDigit t) :
    (decimal? (sign ++ t)).isSome = true := by
  have hhead := h.head?
  cases h with
  | whole hdigits hexponent =>
    rw [decimal?_whole hsign hdigits hexponent, Option.isSome_map]
    exact isSome_exponent?_iff.mpr hexponent
  | pointed hdigits hfraction hexponent =>
    rw [decimal?_pointed hsign hhead hdigits.2 hfraction (.inl hdigits.1) hexponent,
      Option.isSome_map]
    exact isSome_exponent?_iff.mpr hexponent
  | fraction hfraction hexponent =>
    rw [← List.nil_append ('.'.toNat :: _)] at hhead ⊢
    rw [decimal?_pointed hsign hhead (List.forall_mem_nil _) hfraction.2 (.inr hfraction.1)
      hexponent, Option.isSome_map]
    exact isSome_exponent?_iff.mpr hexponent

/-- The reading of a decimal succeeds exactly on the decimals, with a sign or without one. -/
theorem isSome_decimal?_iff : (decimal? t).isSome = true ↔
    ∃ sign s, IsSign sign ∧ IsDecimal Text.isDigit s ∧ t = sign ++ s := by
  constructor
  · intro h
    obtain ⟨sign, hsign, ht⟩ := exists_eq_append_splitSign t
    exact ⟨sign, _, hsign, isDecimal_of_isSome_decimal? h, ht⟩
  · rintro ⟨sign, s, hsign, hdecimal, rfl⟩
    exact isSome_decimal?_of_isDecimal hsign hdecimal

end Decimal

/-! ## Literals of a marked base -/

section Radix

variable {base : Nat} {t : Text}

theorem base?_eq_some_iff {mark : Nat} : base? mark = some base ↔ (mark, base) ∈ radixMarks := by
  simp only [base?, radixMarks, List.mem_cons, Prod.mk.injEq, List.not_mem_nil, or_false]
  grind

theorem radixParts?_eq_some_iff {digits : Text} :
    radixParts? t = some (base, digits) ↔ ∃ mark, (mark, base) ∈ radixMarks ∧ digits ≠ [] ∧
      (∀ d ∈ digits, (Text.hexDigit? d).isSome = true) ∧ t = '0'.toNat :: mark :: digits := by
  constructor
  · intro h
    unfold radixParts? at h
    split at h
    · rename_i z mark rest
      rw [Option.ite_none_right_eq_some] at h
      obtain ⟨⟨hzero, hne, hall⟩, hbase⟩ := h
      obtain ⟨b, hb, heq⟩ := Option.map_eq_some_iff.mp hbase
      cases heq
      exact ⟨mark, base?_eq_some_iff.mp hb, hne, List.all_eq_true.mp hall, by rw [hzero]⟩
    · cases h
  · rintro ⟨mark, hmark, hne, hdigits, rfl⟩
    rw [radixParts?, if_pos ⟨rfl, hne, List.all_eq_true.mpr hdigits⟩, base?_eq_some_iff.mpr hmark,
      Option.map_some]

theorem radixParts?_of_isRadixRun {mark : Nat} {digits : Text} (hmark : (mark, base) ∈ radixMarks)
    (hdigits : IsRadixRun base digits) :
    radixParts? ('0'.toNat :: mark :: digits) = some (base, digits) :=
  radixParts?_eq_some_iff.mpr ⟨mark, hmark, hdigits.1, hdigits.isSome_hexDigit?, rfl⟩

/-- Behind the first mark, the second one passes for digits. -/
theorem HasTwoMarks.exists_radixParts? (h : HasTwoMarks t) : ∃ mark digits,
    (mark, 2) ∈ radixMarks ∧ IsRadixRun 2 digits ∧
      radixParts? t = some (2, '0'.toNat :: mark :: digits) := by
  obtain ⟨mark, mark', digits, hmark, hmark', hdigits, rfl⟩ := h
  have hbinary : ∀ m ∈ radixMarks, m.2 = 2 → (Text.hexDigit? m.1).isSome = true := by decide
  refine ⟨mark', digits, hmark', hdigits,
    radixParts?_eq_some_iff.mpr ⟨mark, hmark, List.cons_ne_nil _ _, ?_, rfl⟩⟩
  exact List.forall_mem_cons.mpr ⟨by decide,
    List.forall_mem_cons.mpr ⟨hbinary _ hmark' rfl, hdigits.isSome_hexDigit?⟩⟩

/-- A decimal has no mark of a base behind a zero. -/
theorem radixParts?_decimal {sign : Text} (hsign : IsSign sign)
    (hdecimal : IsDecimal Text.isDigit t) : radixParts? (sign ++ t) = none := by
  have hmarks : ∀ m ∈ radixMarks, Text.isDigit m.1 = false ∧ m.1 ∉ decimalMarks := by decide
  rw [Option.eq_none_iff_forall_not_mem]
  rintro ⟨base, digits⟩ hparts
  obtain ⟨mark, hmark, -, -, heq⟩ := radixParts?_eq_some_iff.mp hparts
  obtain ⟨hdigit, hdecimalMark⟩ := hmarks _ hmark
  have hmem : mark ∈ sign ++ t := by simp [heq]
  rcases List.mem_append.mp hmem with hmem | hmem
  · exact hdecimalMark (hsign.subset mark hmem)
  · rcases hdecimal.subset mark hmem with h | h
    · rw [hdigit] at h
      cases h
    · exact hdecimalMark h

/-- What a digit adds to the digits in front of it. -/
theorem radixValue_eq_foldl (base : Nat) (t : Text) :
    radixValue base t = t.foldl (fun n c ↦ base * n + (Text.hexDigit? c).getD 0) 0 := by
  rw [radixValue, Nat.ofDigits_eq_foldr, List.foldr_map, List.foldr_reverse]
  refine congrArg (fun f ↦ List.foldl f 0 t) (funext fun n ↦ funext fun c ↦ ?_)
  exact Nat.add_comm _ _

/-- ASCII digits write the same number as digits of all scripts and as digits of base ten. -/
theorem digitsValue_eq_radixValue (h : ∀ c ∈ t, Text.isAsciiDigit c = true) :
    Text.digitsValue t = radixValue 10 t := by
  rw [radixValue_eq_foldl, Text.digitsValue, Text.ofDigitValues, List.foldl_map]
  refine List.foldl_ext _ _ 0 fun n c hc ↦ ?_
  rw [Text.digitValue?_of_isAsciiDigit (h c hc), Text.hexDigit?, if_pos (h c hc)]
  rfl

/-- Digits of a base write a number in it. -/
theorem valueInBase?_of_digits (h : ∀ c ∈ t, ∃ d < base, Text.hexDigit? c = some d) :
    valueInBase? base t = some (radixValue base t) := by
  rw [radixValue_eq_foldl, valueInBase?]
  suffices ∀ n, t.foldl (fun acc c ↦ acc.bind fun n ↦
      ((Text.hexDigit? c).filter (· < base)).map fun d ↦ base * n + d) (some n) =
      some (t.foldl (fun n c ↦ base * n + (Text.hexDigit? c).getD 0) n) from this 0
  induction t with
  | nil => exact fun n ↦ rfl
  | cons c t ih =>
    intro n
    obtain ⟨⟨d, hd, hc⟩, ht⟩ := List.forall_mem_cons.mp h
    rw [List.foldl_cons, List.foldl_cons, ← ih ht, Option.bind_some, hc, Option.filter_some,
      if_pos (decide_eq_true hd)]
    rfl

/-- Nothing else writes a number in a base. -/
theorem digits_of_valueInBase? (h : (valueInBase? base t).isSome = true) :
    ∀ c ∈ t, ∃ d < base, Text.hexDigit? c = some d := by
  have hnone (t : Text) : t.foldl (fun acc c ↦ acc.bind fun n ↦
      ((Text.hexDigit? c).filter (· < base)).map fun d ↦ base * n + d) none = none := by
    induction t with
    | nil => rfl
    | cons c t ih => exact ih
  unfold valueInBase? at h
  generalize 0 = n at h
  induction t generalizing n with
  | nil => exact List.forall_mem_nil _
  | cons c t ih =>
    rw [List.foldl_cons, Option.bind_some] at h
    cases hc : (Text.hexDigit? c).filter (· < base) with
    | none =>
      rw [hc, Option.map_none, hnone] at h
      cases h
    | some d =>
      rw [hc, Option.map_some] at h
      obtain ⟨hdigit, hd⟩ := Option.filter_eq_some_iff.mp hc
      exact List.forall_mem_cons.mpr ⟨⟨d, of_decide_eq_true hd, hdigit⟩, ih _ h⟩

/-- No digit of a base is a mark of it. -/
theorem le_of_hexDigit?_mark {mark d : Nat} (hmark : (mark, base) ∈ radixMarks)
    (hd : Text.hexDigit? mark = some d) : base ≤ d := by
  have hmarks : ∀ m ∈ radixMarks, ∀ d ∈ Text.hexDigit? m.1, m.2 ≤ d := by decide
  exact hmarks _ hmark d hd

theorem dropMark_of_isRadixRun (h : IsRadixRun base t) : dropMark base t = t := by
  unfold dropMark
  split
  · rename_i z c d digits
    refine if_neg fun hand ↦ ?_
    obtain ⟨value, hlt, hvalue⟩ := h.2 c (by simp)
    have hle := le_of_hexDigit?_mark (base?_eq_some_iff.mp hand.2) hvalue
    omega
  · rfl

theorem dropMark_mark {mark : Nat} {digits : Text} (hmark : (mark, base) ∈ radixMarks)
    (hne : digits ≠ []) : dropMark base ('0'.toNat :: mark :: digits) = digits := by
  obtain ⟨d, digits, rfl⟩ := List.exists_cons_of_ne_nil hne
  exact if_pos ⟨rfl, base?_eq_some_iff.mpr hmark⟩

/-- A binary literal with two marks is no literal. -/
theorem HasTwoMarks.not_isLiteral (h : HasTwoMarks t) : ¬IsLiteral Text.isDigit t := by
  obtain ⟨mark, digits, hmark, hdigits, hparts⟩ := h.exists_radixParts?
  intro hliteral
  cases hliteral with
  | empty => cases hparts
  | infinity hsign => rcases hsign with rfl | rfl | rfl <;> cases hparts
  | decimal hsign hdecimal =>
    rw [radixParts?_decimal hsign hdecimal] at hparts
    cases hparts
  | radix hmark' hdigits' =>
    -- the second mark is no digit of the base
    rw [radixParts?_of_isRadixRun hmark' hdigits'] at hparts
    cases hparts
    obtain ⟨d, hlt, hd⟩ := hdigits'.2 mark (by simp)
    exact Nat.not_lt.mpr (le_of_hexDigit?_mark hmark hd) hlt

/-- A second mark is taken off if it is there. -/
theorem dropMark_cases (base : Nat) (t : Text) : dropMark base t = t ∨
    ∃ mark digits, (mark, base) ∈ radixMarks ∧ digits ≠ [] ∧ t = '0'.toNat :: mark :: digits ∧
      dropMark base t = digits := by
  unfold dropMark
  split
  · rename_i z c d digits
    split
    · rename_i hand
      exact .inr ⟨c, d :: digits, base?_eq_some_iff.mp hand.2, List.cons_ne_nil _ _,
        by rw [hand.1], rfl⟩
    · exact .inl rfl
  · exact .inl rfl

end Radix

end Numeral

/-! ## Which texts are read -/

namespace Number

open Numeral

variable {t : Text}

/-- Behind a marked base, the reading takes the digits, less a second mark. -/
theorem ofText?_of_radixParts? {base : Nat} {digits : Text}
    (h : radixParts? t.trim = some (base, digits)) :
    ofText? t = (valueInBase? base (dropMark base digits)).map fun n ↦ .int n := by
  obtain ⟨mark, -, -, -, htrim⟩ := radixParts?_eq_some_iff.mp h
  have hempty : ¬t.trim.isEmpty = true := by simp [htrim]
  have hinfinite : ¬(t.trim = ↑"Infinity" ∨ t.trim = ↑"+Infinity") := by
    rw [htrim]
    rintro (heq | heq) <;> cases heq
  have hnegative : ¬t.trim = ↑"-Infinity" := by
    rw [htrim]
    intro heq
    cases heq
  unfold ofText?
  simp only [if_neg hempty, if_neg hinfinite, if_neg hnegative, h]
  cases valueInBase? base (dropMark base digits) with
  | none => rfl
  | some n => rfl

/-- A decimal is read for its parts. -/
theorem ofText?_of_isDecimal {sign s : Text} (hsign : IsSign sign)
    (hdecimal : IsDecimal Text.isDigit s) (htrim : t.trim = sign ++ s) :
    ofText? t = (decimal? (sign ++ s)).map (·.toNumber) := by
  -- no decimal is an infinity, because the names of those hold an `I`
  have hletter : 'I'.toNat ∉ sign ++ s := by
    have hI : ¬(Text.isDigit 'I'.toNat = true ∨ 'I'.toNat ∈ decimalMarks) := by decide
    rw [List.mem_append, not_or]
    exact ⟨fun h ↦ hI (.inr (hsign.subset _ h)), fun h ↦ hI (hdecimal.subset _ h)⟩
  have hempty : ¬(sign ++ s).isEmpty = true := by
    rw [List.isEmpty_iff, List.append_eq_nil_iff]
    exact fun h ↦ hdecimal.ne_nil h.2
  have hinfinite : ¬(sign ++ s = ↑"Infinity" ∨ sign ++ s = ↑"+Infinity") := by
    rintro (heq | heq) <;> exact hletter (heq ▸ by decide)
  have hnegative : ¬sign ++ s = ↑"-Infinity" := fun heq ↦ hletter (heq ▸ by decide)
  unfold ofText?
  simp only [htrim, if_neg hempty, if_neg hinfinite, if_neg hnegative,
    radixParts?_decimal hsign hdecimal]

/-- Digits with a sign or without one are read as an integer, up to the limit on digits. -/
theorem ofText?_of_digits {sign digits : Text} (hsign : IsSign sign)
    (hdigits : IsRun Text.isDigit digits) (hlength : digits.length ≤ decimalDigitLimit)
    (htrim : t.trim = sign ++ digits) :
    ofText? t = some (.int (if sign = ['-'.toNat] then -(Text.digitsValue digits)
      else Text.digitsValue digits)) := by
  have hwhole := decimal?_whole hsign hdigits .absent
  rw [List.append_nil] at hwhole
  rw [ofText?_of_isDecimal hsign (.of_isRun hdigits) htrim, hwhole]
  simp [exponent?, Decimal.toNumber, hlength]

/-- **Written integers are read back.** The digits of an integer are a numeral for it. -/
theorem ofText?_ofInt {n : Int} (h : (Nat.toDigits 10 n.natAbs).length ≤ decimalDigitLimit) :
    ofText? (Text.ofInt n) = some (.int n) := by
  have hdigits : ∀ c ∈ Text.ofNat n.natAbs, Text.isDigit c = true :=
    fun c hc ↦ Text.isDigit_of_isAsciiDigit (Text.isAsciiDigit_of_mem_ofNat hc)
  have hlength : (Text.ofNat n.natAbs).length ≤ decimalDigitLimit := by rwa [Text.length_ofNat]
  have htrim : (Text.ofInt n).trim = Text.ofInt n := by
    refine Text.trimWhile_eq_self fun c hc ↦ ?_
    rcases Text.eq_or_isAsciiDigit_of_mem_ofInt hc with rfl | hdigit
    · decide
    · exact Text.isBlank_eq_false_of_isAsciiDigit hdigit
  have hread {sign : Text} (hsign : IsSign sign)
      (hwritten : Text.ofInt n = sign ++ Text.ofNat n.natAbs) :=
    ofText?_of_digits hsign ⟨Text.ofNat_ne_nil n.natAbs, hdigits⟩ hlength (htrim.trans hwritten)
  rw [Text.digitsValue_ofNat] at hread
  by_cases hnegative : n < 0
  · have hn : -(n.natAbs : Int) = n := by omega
    rw [hread (.inr (.inr rfl)) (if_pos hnegative), if_pos rfl, hn]
  · have hn : (n.natAbs : Int) = n := by omega
    rw [hread (.inl rfl) (if_neg hnegative), if_neg (by simp), hn]

theorem ofText?_of_isRadixRun {mark base : Nat} {digits : Text}
    (hmark : (mark, base) ∈ radixMarks) (hdigits : IsRadixRun base digits)
    (htrim : t.trim = '0'.toNat :: mark :: digits) :
    ofText? t = some (.int (radixValue base digits)) := by
  have hparts : radixParts? t.trim = some (base, digits) := by
    rw [htrim, radixParts?_of_isRadixRun hmark hdigits]
  rw [ofText?_of_radixParts? hparts, dropMark_of_isRadixRun hdigits,
    valueInBase?_of_digits hdigits.2]
  rfl

theorem ofText?_of_hasTwoMarks (h : HasTwoMarks t.trim) : ∃ x, ofText? t = some x := by
  obtain ⟨mark, digits, hmark, hdigits, hparts⟩ := h.exists_radixParts?
  rw [ofText?_of_radixParts? hparts, dropMark_mark hmark hdigits.1,
    valueInBase?_of_digits hdigits.2]
  exact ⟨_, rfl⟩

/-- What is read behind a marked base is a literal of the base or has a second mark. -/
theorem isLiteral_or_hasTwoMarks_of_radixParts? {base : Nat} {digits : Text} {x : Number}
    (hparts : radixParts? t.trim = some (base, digits)) (hx : ofText? t = some x) :
    IsLiteral Text.isDigit t.trim ∨ HasTwoMarks t.trim := by
  obtain ⟨mark, hmark, hne, hdigits, htrim⟩ := radixParts?_eq_some_iff.mp hparts
  rw [ofText?_of_radixParts? hparts] at hx
  obtain ⟨n, hn, -⟩ := Option.map_eq_some_iff.mp hx
  have hvalue := digits_of_valueInBase? (Option.isSome_of_eq_some hn)
  rw [htrim]
  rcases dropMark_cases base digits with hdrop | ⟨mark', rest, hmark', hrest, rfl, hdrop⟩
  · rw [hdrop] at hvalue
    exact .inl (.radix hmark ⟨hne, hvalue⟩)
  · have hbinary : ∀ m ∈ radixMarks, (Text.hexDigit? m.1).isSome = true → m.2 = 2 := by decide
    obtain rfl : base = 2 := hbinary _ hmark' (hdigits mark' (by simp))
    rw [hdrop] at hvalue
    exact .inr ⟨mark, mark', rest, hmark, hmark', ⟨hrest, hvalue⟩, rfl⟩

/-- What is read without a marked base is a literal. -/
theorem isLiteral_of_ofText? {x : Number} (hparts : radixParts? t.trim = none)
    (hx : ofText? t = some x) : IsLiteral Text.isDigit t.trim := by
  simp only [ofText?] at hx
  split at hx
  · rename_i hempty
    rw [List.isEmpty_iff.mp hempty]
    exact .empty
  split at hx
  · rename_i hinfinite
    rcases hinfinite with heq | heq
    · rw [heq]
      exact .infinity (.inl rfl)
    · rw [heq]
      exact .infinity (.inr (.inl rfl))
  split at hx
  · rename_i hnegative
    rw [hnegative]
    exact .infinity (.inr (.inr rfl))
  rw [hparts] at hx
  obtain ⟨d, hd, -⟩ := Option.map_eq_some_iff.mp hx
  obtain ⟨sign, s, hsign, hdecimal, heq⟩ := isSome_decimal?_iff.mp (Option.isSome_of_eq_some hd)
  rw [heq]
  exact .decimal hsign hdecimal

/-- Every literal is read. -/
theorem exists_ofText?_of_isLiteral (h : IsLiteral Text.isDigit t.trim) :
    ∃ x, ofText? t = some x := by
  generalize htrim : t.trim = u at h
  cases h with
  | empty =>
    simp only [ofText?, htrim]
    exact ⟨_, rfl⟩
  | infinity hsign =>
    simp only [ofText?, htrim]
    rcases hsign with rfl | rfl | rfl <;> exact ⟨_, rfl⟩
  | decimal hsign hdecimal =>
    obtain ⟨d, hd⟩ := Option.isSome_iff_exists.mp (isSome_decimal?_of_isDecimal hsign hdecimal)
    rw [ofText?_of_isDecimal hsign hdecimal htrim, hd]
    exact ⟨_, rfl⟩
  | radix hmark hdigits => exact ⟨_, ofText?_of_isRadixRun hmark hdigits htrim⟩

/-- **Which texts are read.** Literals over the digits of all scripts, and binary literals with two
marks. -/
theorem exists_ofText?_iff : (∃ x, ofText? t = some x) ↔
    IsLiteral Text.isDigit t.trim ∨ HasTwoMarks t.trim := by
  constructor
  · rintro ⟨x, hx⟩
    cases hparts : radixParts? t.trim with
    | some parts => exact isLiteral_or_hasTwoMarks_of_radixParts? hparts hx
    | none => exact .inl (isLiteral_of_ofText? hparts hx)
  · rintro (hliteral | hmarks)
    · exact exists_ofText?_of_isLiteral hliteral
    · exact ofText?_of_hasTwoMarks hmarks

end Number

end MockApi
