import MockApi.Proofs.Condition.Trimming

/-!
# Lexemes by themselves

A lexeme that stands for a token remains one whatever it is taken from: the lexer takes it off the
text that it makes up alone, and off every text in which white space follows it. That is not so for
texts in general, where a number, a word or a symbol goes on with what fits; a lexeme has already
taken what fits, and white space fits nothing but the inside of a quoted text.
-/

namespace MockApi.Lexer

/-! ## Numbers -/

section Number

variable {t w left : Text}

theorem splitHex?_alone (h : splitHex? t = some (w, left)) : splitHex? w = some (w, []) := by
  unfold splitHex? at h
  split at h
  · rename_i z x rest
    simp only [Option.ite_none_right_eq_some, Option.some.injEq, Prod.mk.injEq] at h
    obtain ⟨hand, rfl, -⟩ := h
    have hdigits : ∀ c ∈ rest.takeWhile isHexDigit, isHexDigit c = true :=
      List.all_eq_true.mp (List.all_takeWhile ..)
    have hnil : ∀ c ∈ ([] : Text).head?, isHexDigit c = false := by simp
    have htake := Text.takeWhile_append_of_stop hdigits hnil
    have hdrop := Text.dropWhile_append_of_stop hdigits hnil
    rw [List.append_nil] at htake hdrop
    simp only [splitHex?, htake, hdrop]
    exact if_pos hand
  · cases h

/-- A text that starts as a hexadecimal number does so with more text behind it. -/
theorem splitHex?_append_isSome (h : (splitHex? w).isSome = true) :
    (splitHex? (w ++ left)).isSome = true := by
  rcases w with _ | ⟨z, _ | ⟨x, rest⟩⟩
  · cases h
  · cases h
  · simp only [splitHex?, Option.isSome_ite, List.cons_append] at h ⊢
    obtain ⟨hzero, hmark, hdigits⟩ := h
    refine ⟨hzero, hmark, ?_⟩
    rcases rest with _ | ⟨d, rest⟩
    · exact absurd rfl hdigits
    · by_cases hd : isHexDigit d = true
      · simp [hd]
      · exact absurd (by simp [hd]) hdigits

/-- A fraction is empty, or a point with digits. -/
theorem splitFraction_shape (t : Text) : (splitFraction t).1 = [] ∨
    ∃ digits, (splitFraction t).1 = '.'.toNat :: digits ∧
      ∀ c ∈ digits, Text.isDigit c = true := by
  rcases t with _ | ⟨c, rest⟩
  · exact .inl rfl
  · by_cases hc : c = '.'.toNat
    · right
      rw [splitFraction, if_pos hc]
      exact ⟨_, by rw [hc], Numeral.isDigit_of_mem_spanDigits rest⟩
    · left
      rw [splitFraction, if_neg hc]

/-- An exponent is empty, or a letter with a sign or none and digits. -/
theorem splitExponent_shape (t : Text) : (splitExponent t).1 = [] ∨
    ∃ e sign digits, (splitExponent t).1 = e :: (sign ++ digits) ∧
      (e = 'e'.toNat ∨ e = 'E'.toNat) ∧ (sign = [] ∨ ∃ c, sign = [c] ∧
        (c = '+'.toNat ∨ c = '-'.toNat)) ∧ digits ≠ [] ∧ ∀ c ∈ digits, Text.isDigit c = true := by
  rcases t with _ | ⟨e, _ | ⟨c, rest⟩⟩
  · exact .inl rfl
  · left
    simp [splitExponent, Numeral.spanDigits]
  · by_cases hsign : c = '+'.toNat ∨ c = '-'.toNat
    · simp only [splitExponent, if_pos hsign]
      split
      · rename_i hand
        exact .inr ⟨e, [c], _, rfl, hand.1, .inr ⟨c, rfl, hsign⟩, hand.2,
          Numeral.isDigit_of_mem_spanDigits rest⟩
      · exact .inl rfl
    · simp only [splitExponent, if_neg hsign]
      split
      · rename_i hand
        exact .inr ⟨e, [], _, rfl, hand.1, .inl rfl, hand.2,
          Numeral.isDigit_of_mem_spanDigits (c :: rest)⟩
      · exact .inl rfl

/-- An exponent starts with a letter. -/
theorem head?_splitExponent (t : Text) : ∀ c ∈ (splitExponent t).1.head?,
    isIdentStart c = true ∧ Text.isDigit c = false := by
  rcases splitExponent_shape t with hnil | ⟨e, sign, digits, heq, he, -⟩
  · simp [hnil]
  · rw [heq]
    intro c hc
    cases hc
    rcases he with rfl | rfl <;> decide

theorem splitFraction_alone {rest : Text}
    (hrest : ∀ c ∈ rest.head?, isIdentStart c = true ∧ Text.isDigit c = false) (t : Text) :
    splitFraction ((splitFraction t).1 ++ rest) = ((splitFraction t).1, rest) := by
  rcases splitFraction_shape t with hnil | ⟨digits, hpoint, hdigits⟩
  · rw [hnil, List.nil_append]
    refine splitFraction_of_ne fun c hc ↦ ?_
    rintro rfl
    exact absurd (hrest _ hc).1 (by decide)
  · rw [hpoint, List.cons_append, splitFraction, if_pos rfl,
      Numeral.spanDigits_append_of_stop hdigits fun c hc ↦ (hrest c hc).2]

theorem splitExponent_alone (t : Text) :
    splitExponent (splitExponent t).1 = ((splitExponent t).1, []) := by
  rcases splitExponent_shape t with hnil | ⟨e, sign, digits, heq, he, hsign, hne, hdigits⟩
  · rw [hnil]
    rfl
  · obtain ⟨d, ds, rfl⟩ := List.exists_cons_of_ne_nil hne
    rw [heq]
    rcases hsign with rfl | ⟨c, rfl, hc⟩
    · -- the first digit is not taken for a sign
      have hd : ¬(d = '+'.toNat ∨ d = '-'.toNat) := by
        rintro (rfl | rfl) <;> exact absurd (hdigits _ List.mem_cons_self) (by decide)
      simp only [List.nil_append, splitExponent, if_neg hd, Numeral.spanDigits_self hdigits]
      exact if_pos ⟨he, hne⟩
    · simp only [List.cons_append, List.nil_append, splitExponent, if_pos hc,
        Numeral.spanDigits_self hdigits]
      exact if_pos ⟨he, hne⟩

/-- The whole part of a decimal number ends where the fraction or the exponent starts. -/
theorem head?_splitFraction_append {rest : Text} (hrest : ∀ c ∈ rest.head?, Text.isDigit c = false)
    (t : Text) : ∀ c ∈ ((splitFraction t).1 ++ rest).head?, Text.isDigit c = false := by
  rcases splitFraction_shape t with hnil | ⟨digits, hpoint, -⟩
  · rwa [hnil, List.nil_append]
  · rw [hpoint]
    intro c hc
    cases hc
    decide

theorem splitDecimal?_alone (h : splitDecimal? t = some (w, left)) :
    splitDecimal? w = some (w, []) := by
  simp only [splitDecimal?, Option.ite_none_left_eq_some, Option.some.injEq, Prod.mk.injEq] at h
  obtain ⟨hne, rfl, -⟩ := h
  have hexponent := head?_splitExponent (splitFraction (Numeral.spanDigits t).2).2
  have hstop := head?_splitFraction_append (fun c hc ↦ (hexponent c hc).2) (Numeral.spanDigits t).2
  rw [List.append_assoc, splitDecimal?]
  simp only [Numeral.spanDigits_append_of_stop (Numeral.isDigit_of_mem_spanDigits t) hstop,
    splitFraction_alone hexponent, splitExponent_alone]
  rw [if_neg hne, List.append_assoc]

theorem splitNumber?_alone (h : splitNumber? t = some (w, left)) :
    splitNumber? w = some (w, []) := by
  rcases Option.or_eq_some_iff.mp h with hhex | ⟨hhex, hdecimal⟩
  · rw [splitNumber?, splitHex?_alone hhex, Option.some_or]
  · have hnone : splitHex? w = none := by
      rw [← Option.not_isSome_iff_eq_none]
      intro hsome
      have happend : (splitHex? (w ++ left)).isSome = true := splitHex?_append_isSome hsome
      rw [← (splitDecimal?_append hdecimal).1, hhex] at happend
      cases happend
    rw [splitNumber?, hnone, Option.none_or, splitDecimal?_alone hdecimal]

end Number

/-! ## Quoted texts -/

/-- A quoted text ends at its closing mark, whatever follows. -/
theorem splitQuotedBody?_of_eq_some {mark : Nat} {t body left : Text}
    (h : splitQuotedBody? mark t = some (body, left)) (rest : Text) :
    splitQuotedBody? mark (body ++ mark :: rest) = some (body, rest) := by
  fun_induction splitQuotedBody? mark t generalizing body left with
  | case1 | case3 | case4 | case5 => cases h
  | case2 t =>
    cases h
    exact splitQuotedBody?_mark mark rest
  | case6 e t hfeed hmark hbackslash ih =>
    obtain ⟨⟨body, left⟩, hbody, heq⟩ := Option.map_eq_some_iff.mp h
    cases heq
    rw [List.cons_append, List.cons_append, splitQuotedBody?_backslash hmark hfeed, ih hbody]
    rfl
  | case7 c t hmark hfeed hbackslash ih =>
    obtain ⟨⟨body, left⟩, hbody, heq⟩ := Option.map_eq_some_iff.mp h
    cases heq
    rw [List.cons_append, splitQuotedBody?_of_ne hmark hfeed hbackslash, ih hbody]
    rfl

/-! ## Lexemes of each class -/

variable {w left rest : Text} {kind : TokenKind}

theorem ne_nil_of_lexeme? {token? : Option TokenKind}
    (h : lexeme? (w ++ rest) = some ⟨token?, w.length, rest⟩) : w ≠ [] := by
  obtain ⟨w', htext, hlength, hne⟩ := exists_eq_append_of_lexeme? h
  obtain ⟨rfl, -⟩ := List.append_inj htext hlength.symm
  exact hne

theorem isBlank_eq_false_of_blank? {c : Nat} {t : Text} (h : blank? (c :: t) = none) :
    Text.isBlank c = false := by
  rw [← Bool.not_eq_true]
  intro hc
  simp [blank?, hc] at h

theorem lexeme?_of_number? (hblank : ∀ c ∈ (w ++ left).head?, Text.isBlank c = false)
    (h : number? (w ++ left) = some ⟨some kind, w.length, left⟩)
    (hrest : ∀ c ∈ rest.head?, Text.isBlank c = true) :
    lexeme? (w ++ rest) = some ⟨some kind, w.length, rest⟩ := by
  obtain ⟨⟨numeral, after⟩, hsplit, heq⟩ := Option.map_eq_some_iff.mp h
  simp only [Lexeme.mk.injEq, Option.some.injEq] at heq
  obtain ⟨rfl, hlength, rfl⟩ := heq
  obtain ⟨htext, hne⟩ := splitNumber?_append hsplit
  obtain ⟨rfl, -⟩ := List.append_inj htext hlength.symm
  have halone : number? w = some ⟨some (.number (Number.ofText? w)), w.length, []⟩ := by
    rw [number?, splitNumber?_alone hsplit]
    rfl
  obtain ⟨c, w, rfl⟩ := List.exists_cons_of_ne_nil hne
  have hnone : blank? (c :: (w ++ rest)) = none := blank?_eq_none (hblank c rfl)
  rw [lexeme?, number?_append_blank hrest, halone, List.cons_append, hnone]
  rfl

/-- A quoted text is a body between two marks, which ends at the closing one whatever follows. -/
theorem exists_of_quoted? (h : quoted? (w ++ left) = some ⟨some kind, w.length, left⟩) :
    ∃ mark body, (mark = Text.apostrophe ∨ mark = Text.quotationMark) ∧
      w = mark :: (body ++ [mark]) ∧ kind = .text (unescape body) ∧
      ∀ rest, splitQuotedBody? mark (body ++ mark :: rest) = some (body, rest) := by
  obtain ⟨⟨mark, body, after⟩, hsplit, heq⟩ := Option.map_eq_some_iff.mp h
  simp only [Lexeme.mk.injEq, Option.some.injEq] at heq
  obtain ⟨rfl, hlength, rfl⟩ := heq
  generalize htext : w ++ after = t at hsplit
  rcases t with _ | ⟨c, t⟩
  · cases hsplit
  · obtain ⟨hmark, hsplit⟩ := Option.ite_none_right_eq_some.mp hsplit
    obtain ⟨⟨inner, left⟩, hbody, heq⟩ := Option.map_eq_some_iff.mp hsplit
    simp only [Prod.mk.injEq] at heq
    obtain ⟨rfl, rfl, rfl⟩ := heq
    have hwhole : w ++ left = c :: (inner ++ [c]) ++ left := by
      simpa [htext] using splitQuotedBody?_append hbody
    have hsize : w.length = (c :: (inner ++ [c])).length := by
      simpa using hlength.symm
    exact ⟨c, inner, hmark, (List.append_inj hwhole hsize).1, rfl,
      splitQuotedBody?_of_eq_some hbody⟩

theorem lexeme?_of_quoted? (h : quoted? (w ++ left) = some ⟨some kind, w.length, left⟩) :
    lexeme? (w ++ rest) = some ⟨some kind, w.length, rest⟩ := by
  obtain ⟨mark, body, hmark, rfl, rfl, hsplit⟩ := exists_of_quoted? h
  simpa using lexeme?_quoted hmark (hsplit rest)

theorem lexeme?_of_ident? (h : ident? (w ++ left) = some ⟨some kind, w.length, left⟩)
    (hrest : ∀ c ∈ rest.head?, Text.isBlank c = true) :
    lexeme? (w ++ rest) = some ⟨some kind, w.length, rest⟩ := by
  obtain ⟨c, t, htext⟩ : ∃ c t, w ++ left = c :: t := by
    refine List.exists_cons_of_ne_nil fun hnil ↦ ?_
    rw [hnil] at h
    cases h
  rw [htext] at h
  obtain ⟨hstart, heq⟩ := Option.ite_none_right_eq_some.mp h
  simp only [Option.some.injEq, Lexeme.mk.injEq] at heq
  obtain ⟨rfl, hlength, hleft⟩ := heq
  have hw : w ++ left = c :: t.takeWhile isIdentPart ++ left := by
    rw [htext, ← hleft, List.cons_append, List.takeWhile_append_dropWhile]
  obtain ⟨rfl, -⟩ := List.append_inj hw hlength.symm
  have hends : EndsWord rest := fun c hc ↦ endsWord_of_isBlank (t := []) (hrest c hc) c rfl
  exact lexeme?_ident hstart (List.all_eq_true.mp (List.all_takeWhile ..)) fun c hc ↦
    (hends c hc).1

theorem lexeme?_of_symbol? (h : symbol? (w ++ left) = some ⟨some kind, w.length, left⟩)
    (hrest : ∀ c ∈ rest.head?, Text.isBlank c = true) :
    lexeme? (w ++ rest) = some ⟨some kind, w.length, rest⟩ := by
  obtain ⟨⟨s, after⟩, hsplit, heq⟩ := Option.map_eq_some_iff.mp h
  simp only [Lexeme.mk.injEq, Option.some.injEq] at heq
  obtain ⟨rfl, hlength, rfl⟩ := heq
  obtain ⟨rfl, -⟩ := List.append_inj (splitSymbol?_append hsplit) hlength.symm
  by_cases hdot : s = .dot
  · -- a point starts a number only in front of digits
    subst hdot
    exact lexeme?_dot fun c hc ↦ (endsWord_of_isBlank (t := []) (hrest c hc) c rfl).2.1
  · refine lexeme?_symbol hdot fun _ c hc ↦ ?_
    have hrange := range_of_isBlank (hrest c hc)
    omega

/-- A lexeme that stands for a token starts with something else than white space. -/
theorem isBlank_head?_of_lexeme? {t : Text} {n : Nat} (h : lexeme? t = some ⟨some kind, n, left⟩) :
    ∀ c ∈ t.head?, Text.isBlank c = false := by
  rcases t with _ | ⟨c, t⟩
  · simp
  rcases Option.or_eq_some_iff.mp h with hblank | ⟨hblank, -⟩
  · obtain ⟨-, heq⟩ := Option.ite_none_left_eq_some.mp hblank
    cases heq
  · have hvisible := isBlank_eq_false_of_blank? hblank
    exact fun d hd ↦ Option.some.inj hd ▸ hvisible

/-- **A lexeme is one of its own.** A lexeme that stands for a token is taken off its text whatever
is put in the place of what follows it, if that is nothing or starts with white space. -/
theorem lexeme?_of_stop (h : lexeme? (w ++ left) = some ⟨some kind, w.length, left⟩)
    (hrest : ∀ c ∈ rest.head?, Text.isBlank c = true) :
    lexeme? (w ++ rest) = some ⟨some kind, w.length, rest⟩ := by
  rcases lexeme?_cases h with ⟨-, hkind⟩ | ⟨_, hnumber, -⟩ | ⟨_, hquoted, -⟩ | ⟨_, hident, -⟩ |
    ⟨_, hsymbol, -⟩
  · cases hkind
  · exact lexeme?_of_number? (isBlank_head?_of_lexeme? h) hnumber hrest
  · exact lexeme?_of_quoted? hquoted
  · exact lexeme?_of_ident? hident hrest
  · exact lexeme?_of_symbol? hsymbol hrest

/-- Only a quoted text stands for a text. -/
theorem quoted?_of_text {t u : Text} {n : Nat} (h : lexeme? t = some ⟨some (.text u), n, left⟩) :
    quoted? t = some ⟨some (.text u), n, left⟩ := by
  rcases lexeme?_cases h with ⟨-, hkind⟩ | ⟨_, -, hkind⟩ | ⟨_, hquoted, -⟩ | ⟨_, -, hkind⟩ |
    ⟨_, -, hkind⟩
  · cases hkind
  · cases hkind
  · exact hquoted
  · cases hkind
  · cases hkind

/-- A lexeme that stands for no token is white space. -/
theorem isBlank_of_lexeme? (h : lexeme? (w ++ left) = some ⟨none, w.length, left⟩) :
    ∀ c ∈ w, Text.isBlank c = true := by
  have hblank : blank? (w ++ left) = some ⟨none, w.length, left⟩ := by
    rcases lexeme?_cases h with ⟨hblank, -⟩ | ⟨_, -, hkind⟩ | ⟨_, -, hkind⟩ | ⟨_, -, hkind⟩ |
      ⟨_, -, hkind⟩
    · exact hblank
    all_goals cases hkind
  obtain ⟨-, heq⟩ := Option.ite_none_left_eq_some.mp hblank
  simp only [Option.some.injEq, Lexeme.mk.injEq, true_and] at heq
  obtain ⟨hlength, hleft⟩ := heq
  have htext : w ++ left = (w ++ left).takeWhile Text.isBlank ++ left :=
    calc w ++ left = (w ++ left).takeWhile Text.isBlank ++ (w ++ left).dropWhile Text.isBlank :=
          List.takeWhile_append_dropWhile.symm
      _ = _ := by rw [hleft]
  rw [(List.append_inj htext hlength.symm).1]
  exact List.all_eq_true.mp (List.all_takeWhile ..)

end MockApi.Lexer
