import MockApi.Proofs.Json.Places

/-!
# Where documents meet the limits

A value is beyond a limit if it is a list or an object that starts where no level is left, or an
integer with too many digits. Reading a document fails for such a value exactly if it stands at a
place where the reader expects a value, and no other failure ends the reading.
-/

namespace MockApi.Json

variable {stack : Stack}

variable {namesNonFinite : Bool} {t rest : Text} {levels : Nat}

/-! ## Integers with too many digits -/

/-- An integer with too many digits, less its sign, and what stands behind it. -/
structure IsLongInteger (digits rest : Text) : Prop where
  /-- The digits are ASCII. -/
  ascii : ∀ c ∈ digits, Text.isAsciiDigit c = true
  /-- There are more of them than can be read. -/
  long : decimalDigitLimit < digits.length
  /-- No zero stands in front. -/
  head : digits.head? ≠ some '0'.toNat
  /-- The digits end here. -/
  stop : ∀ c ∈ rest.head?, Text.isAsciiDigit c = false
  /-- Neither a fraction nor an exponent follows. -/
  whole : (readFraction rest).1 = none ∧ (readExponent rest).1 = none

theorem IsLongInteger.exists_cons {digits : Text} (h : IsLongInteger digits rest) :
    ∃ d ds, digits = d :: ds ∧ Text.isAsciiDigit d = true ∧ d ≠ '0'.toNat := by
  obtain ⟨d, ds, rfl⟩ : ∃ d ds, digits = d :: ds := by
    refine List.exists_cons_of_ne_nil ?_
    rintro rfl
    exact Nat.not_lt_zero _ h.long
  exact ⟨d, ds, rfl, h.ascii d List.mem_cons_self, fun hzero ↦ h.head (congrArg some hzero)⟩

theorem readWhole_of_isLongInteger {digits : Text} (h : IsLongInteger digits rest) :
    readWhole (digits ++ rest) = some (digits, rest) := by
  have hspan : spanDigits (digits ++ rest) = (digits, rest) := by
    rw [spanDigits, Text.takeWhile_append_of_stop h.ascii h.stop,
      Text.dropWhile_append_of_stop h.ascii h.stop]
  obtain ⟨d, ds, rfl, hdigit, hzero⟩ := h.exists_cons
  rw [List.cons_append] at hspan ⊢
  rw [readWhole, if_neg hzero, if_pos hdigit, hspan]

/-- More digits than one are all there are, and no zero is in front of them. -/
theorem eq_append_of_readWhole_of_long {whole : Text} (h : readWhole t = some (whole, rest))
    (hlong : 1 < whole.length) : t = whole ++ rest ∧ (∀ c ∈ whole, Text.isAsciiDigit c = true) ∧
      whole.head? ≠ some '0'.toNat ∧ ∀ c ∈ rest.head?, Text.isAsciiDigit c = false := by
  unfold readWhole at h
  split at h
  · cases h
  rename_i c t'
  split at h
  · cases h
    exact absurd hlong (Nat.lt_irrefl 1)
  rename_i hzero
  split at h
  · rename_i hdigit
    obtain ⟨rfl, rfl⟩ := Prod.mk.inj (Option.some.inj h)
    refine ⟨List.takeWhile_append_dropWhile.symm, List.all_eq_true.mp (List.all_takeWhile ..), ?_,
      fun c ↦ Text.eq_false_of_mem_head?_dropWhile⟩
    rw [List.takeWhile_cons_of_pos hdigit]
    exact fun heq ↦ hzero (Option.some.inj heq)
  · cases h

theorem readFraction_snd_of_none (h : (readFraction t).1 = none) : (readFraction t).2 = t := by
  unfold readFraction at h ⊢
  split
  · rfl
  · dsimp only at h ⊢
    split
    · rename_i hpoint
      rw [if_pos hpoint] at h
      cases h
    · rfl

variable {failure : Failure}

/-- Reading a number fails for its digits only. -/
theorem readNumber_eq_failed_iff {negative : Bool} {start : Text} :
    readNumber negative start t = .error (.failed failure) ↔
      ∃ digits rest, IsLongInteger digits rest ∧ t = digits ++ rest ∧
        failure = .numeralTooLong digits.length := by
  constructor
  · intro h
    unfold readNumber at h
    split at h
    · cases h
    rename_i whole rest hwhole
    dsimp only at h
    split at h
    · rename_i hnone
      rw [Bool.and_eq_true, Option.isNone_iff_eq_none, Option.isNone_iff_eq_none] at hnone
      split at h
      · rename_i hlong
        cases h
        obtain ⟨heq, hdigits, hhead, hstop⟩ :=
          eq_append_of_readWhole_of_long hwhole (Nat.lt_trans (by decide) hlong)
        rw [readFraction_snd_of_none hnone.1] at hnone
        exact ⟨whole, rest, ⟨hdigits, hlong, hhead, hstop, hnone⟩, heq, rfl⟩
      · cases h
    · cases h
  · rintro ⟨digits, rest, hlong, rfl, rfl⟩
    unfold readNumber
    rw [readWhole_of_isLongInteger hlong]
    dsimp only
    rw [readFraction_snd_of_none hlong.whole.1, hlong.whole.1, hlong.whole.2]
    exact if_pos hlong.long

/-- Reading a value that is no text and no container fails for the digits of an integer only. -/
theorem readScalar_eq_failed_iff : readScalar namesNonFinite t = .error (.failed failure) ↔
    ∃ sign digits rest, (sign = [] ∨ sign = ['-'.toNat]) ∧ IsLongInteger digits rest ∧
      t = sign ++ (digits ++ rest) ∧ failure = .numeralTooLong digits.length := by
  constructor
  · intro h
    unfold readScalar at h
    split at h
    · cases h
    · split at h <;> cases h
    · split at h
      · split at h
        · rename_i c t' _ _ hminus
          obtain ⟨digits, rest, hlong, rfl, hfailure⟩ := readNumber_eq_failed_iff.mp h
          exact ⟨['-'.toNat], digits, rest, .inr rfl, hlong, by rw [hminus]; rfl, hfailure⟩
        · obtain ⟨digits, rest, hlong, heq, hfailure⟩ := readNumber_eq_failed_iff.mp h
          exact ⟨[], digits, rest, .inl rfl, hlong, heq, hfailure⟩
      · cases h
  · rintro ⟨sign, digits, rest, hsign, hlong, rfl, hfailure⟩
    have hnumber (negative : Bool) (start : Text) :
        readNumber negative start (digits ++ rest) = .error (.failed failure) :=
      readNumber_eq_failed_iff.mpr ⟨digits, rest, hlong, rfl, hfailure⟩
    obtain ⟨d, ds, rfl, hdigit, -⟩ := hlong.exists_cons
    obtain ⟨hliteral, hname, hliteral', hname'⟩ := readName?_of_isAsciiDigit hdigit (ds ++ rest)
    have hminus : d ≠ '-'.toNat := by
      rintro rfl
      cases hdigit
    rw [List.cons_append] at hnumber
    unfold readScalar
    rcases hsign with rfl | rfl
    · rw [List.nil_append, List.cons_append, hliteral, hname]
      dsimp only
      rw [if_neg hminus, hnumber]
    · rw [List.cons_append, List.nil_append, List.cons_append, hliteral', hname']
      dsimp only
      rw [if_pos rfl, hnumber]

/-! ## The limits of documents -/

/-- A value that starts here is beyond a limit. -/
inductive Exceeds : Nat → Text → Failure → Prop
  /-- A list or an object starts where no level is left. -/
  | nesting {c : Nat} {rest : Text} (hc : c = '['.toNat ∨ c = 0x7B) :
      Exceeds 0 (c :: rest) .nestingTooDeep
  /-- An integer with too many digits starts here. -/
  | integer {levels : Nat} {sign digits rest : Text} (hsign : sign = [] ∨ sign = ['-'.toNat])
      (hlong : IsLongInteger digits rest) :
      Exceeds levels (sign ++ (digits ++ rest)) (.numeralTooLong digits.length)

theorem isRefusedAt_failed_iff :
    IsRefusedAt namesNonFinite levels t (.failed failure) ↔ Exceeds levels t failure := by
  constructor
  · rintro (⟨rfl, ⟨c, rest, rfl, hc⟩, hfailure⟩ | hscalar)
    · cases hfailure
      exact .nesting hc
    · obtain ⟨sign, digits, rest, hsign, hlong, rfl, rfl⟩ := readScalar_eq_failed_iff.mp hscalar
      exact .integer hsign hlong
  · intro h
    cases h with
    | nesting hc => exact .inl ⟨rfl, ⟨_, _, rfl, hc⟩, rfl⟩
    | integer hsign hlong =>
      exact .inr (readScalar_eq_failed_iff.mpr ⟨_, _, _, hsign, hlong, rfl, rfl⟩)

theorem readValue_of_exceeds {size : Nat} (h : Exceeds levels t failure) :
    readValue namesNonFinite size levels t = .error (.failed failure) := by
  cases h with
  | nesting hc =>
    rcases hc with rfl | rfl
    · rfl
    · rfl
  | @integer levels sign digits rest hsign hlong =>
    have hscalar : readScalar namesNonFinite (sign ++ (digits ++ rest)) =
        .error (.failed (.numeralTooLong digits.length)) :=
      readScalar_eq_failed_iff.mpr ⟨sign, digits, rest, hsign, hlong, rfl, rfl⟩
    obtain ⟨d, ds, rfl, hdigit, -⟩ := hlong.exists_cons
    have hrange := Text.isAsciiDigit_iff.mp hdigit
    rcases hsign with rfl | rfl
    · rw [List.nil_append, List.cons_append] at hscalar ⊢
      rw [readValue_scalar (by simp [Text.quotationMark]; omega) (by simp; omega) (by omega),
        hscalar]
    · rw [List.cons_append] at hscalar ⊢
      rw [readValue_scalar (by decide) (by decide) (by decide), hscalar]

/-- A value beyond a limit stands where the reader of a document expects a value. A document behind
a byte order mark is not read at all. -/
def IsBeyondLimit [Stack] (namesNonFinite : Bool) (t : Text) (failure : Failure) : Prop :=
  t.head? ≠ some 0xFEFF ∧ ∃ place levels t', Expects namesNonFinite t place levels t' ∧
    Exceeds levels t' failure

/-- **Where reading a document fails for a limit.** It does so for the values beyond a limit that
stand where the reader expects a value. -/
theorem read_eq_failed_iff :
    read namesNonFinite t = .error (.failed failure) ↔ IsBeyondLimit namesNonFinite t failure := by
  constructor
  · intro h
    refine ⟨fun hmark ↦ ?_, ?_⟩
    · rw [read, if_pos hmark] at h
      cases h
    · obtain ⟨place, levels, t', hplace, hrefused⟩ := exists_isRefusedAt_of_read (by simp) h
      exact ⟨place, levels, t', hplace, isRefusedAt_failed_iff.mp hrefused⟩
  · rintro ⟨hmark, place, levels, t', hplace, hexceeds⟩
    exact read_of_fails hmark hplace (fails_of_readValue (readValue_of_exceeds hexceeds))

/-- Only nesting and the digits of integers are limited. -/
theorem IsBeyondLimit.cases (h : IsBeyondLimit namesNonFinite t failure) :
    failure = .nestingTooDeep ∨ ∃ n, decimalDigitLimit < n ∧ failure = .numeralTooLong n := by
  obtain ⟨-, place, levels, t', -, hexceeds⟩ := h
  cases hexceeds with
  | nesting => exact .inl rfl
  | integer _ hlong => exact .inr ⟨_, hlong.long, rfl⟩

/-- A document that is an integer with too many digits is beyond the limit. -/
theorem IsLongInteger.isBeyondLimit {digits : Text} (h : IsLongInteger digits []) :
    IsBeyondLimit namesNonFinite digits (.numeralTooLong digits.length) := by
  have hexceeds : Exceeds Stack.reading ([] ++ (digits ++ [])) _ := .integer (.inl rfl) h
  rw [List.nil_append, List.append_nil] at hexceeds
  obtain ⟨d, ds, rfl, hdigit, -⟩ := h.exists_cons
  have hrange := Text.isAsciiDigit_iff.mp hdigit
  have hskip : skipSpace (d :: ds) = d :: ds :=
    skipSpace_cons (by simp [isSpace]; omega) ds
  refine ⟨fun hmark ↦ ?_, .document, Stack.reading, d :: ds, ?_, hexceeds⟩
  · have : d = 0xFEFF := Option.some.inj hmark
    omega
  · have hstart : Expects namesNonFinite (d :: ds) .document Stack.reading (skipSpace (d :: ds)) :=
      .start
    rwa [hskip] at hstart

/-- So is a long document of ones. -/
theorem isBeyondLimit_ones {n : Nat} (h : decimalDigitLimit < n) :
    IsBeyondLimit namesNonFinite (List.replicate n '1'.toNat) (.numeralTooLong n) := by
  have hlength : (List.replicate n '1'.toNat).length = n := List.length_replicate
  have hlong : IsLongInteger (List.replicate n '1'.toNat) [] := by
    refine ⟨fun c hc ↦ ?_, h.trans_eq hlength.symm, ?_, nofun, rfl, rfl⟩
    · rw [List.eq_of_mem_replicate hc]
      decide
    · rw [List.head?_replicate, if_neg (Nat.ne_zero_of_lt h)]
      decide
  have hbeyond : IsBeyondLimit namesNonFinite _ _ := hlong.isBeyondLimit
  rwa [hlength] at hbeyond

end MockApi.Json
