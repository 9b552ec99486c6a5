import MockApi.Condition.Lexer
import MockApi.Proofs.Number.Numeral
import MockApi.Proofs.Outcome

/-!
# Scanning spelled tokens

Each kind of token has a spelling that the lexer takes off the front of a text, provided that what
follows does not go on with it: digits and words end where no digit, letter or point follows, and a
symbol ends where no equals sign follows. Texts built of such spellings and of white space are
scanned token by token; `Scans` says so for a whole text.
-/

namespace MockApi.Lexer

/-- A text that does not go on with a number or a word in front of it. -/
def EndsWord (rest : Text) : Prop :=
  ∀ c ∈ rest.head?, isIdentPart c = false ∧ Text.isDigit c = false ∧ c ≠ 0x2E

/-! ## Symbols -/

/-- A symbol with an equals sign behind it starts another symbol. -/
def TakesEquals (s : Symbol) : Prop := ∃ s' ∈ Symbol.all, s.spelling ++ [0x3D] <+: s'.spelling

instance (s : Symbol) : Decidable (TakesEquals s) :=
  inferInstanceAs (Decidable (∃ s' ∈ Symbol.all, _))

/-- A symbol in front of another one in the list of all symbols is no start of it, and goes on with
an equals sign if the other one is a start of it. -/
theorem not_prefix_of_mem_takeWhile {s s' : Symbol} (h : s' ∈ Symbol.all.takeWhile (· ≠ s)) :
    ¬s'.spelling <+: s.spelling ∧
      (s.spelling <+: s'.spelling → s.spelling ++ [0x3D] <+: s'.spelling) := by
  have hall : ∀ s ∈ Symbol.all, ∀ s' ∈ Symbol.all.takeWhile (· ≠ s),
      ¬s'.spelling <+: s.spelling ∧
        (s.spelling <+: s'.spelling → s.spelling ++ [0x3D] <+: s'.spelling) := by decide
  exact hall s s.mem_all s' h

theorem splitSymbol?_spelling {s : Symbol} {rest : Text}
    (hrest : TakesEquals s → ∀ c ∈ rest.head?, c ≠ 0x3D) :
    splitSymbol? (s.spelling ++ rest) = some (s, rest) := by
  have hall : ∃ back, Symbol.all = Symbol.all.takeWhile (· ≠ s) ++ s :: back := by
    cases s <;> exact ⟨_, rfl⟩
  obtain ⟨back, hall⟩ := hall
  refine List.findSome?_eq_some_iff.mpr ⟨_, s, back, hall, ?_, fun s' hs' ↦ ?_⟩
  · rw [Text.isPrefixOf?_append, Option.map_some]
  · -- a symbol that is tried before starts the text only if an equals sign follows
    obtain ⟨hstart, hequals⟩ := not_prefix_of_mem_takeWhile hs'
    rw [Option.map_eq_none_iff, Option.eq_none_iff_forall_ne_some]
    intro left hleft
    rcases List.append_eq_append_iff.mp (Text.eq_append_of_isPrefixOf? hleft) with
      ⟨u, hs, hu⟩ | ⟨u, hs, hu⟩
    · have hgoes := hequals ⟨u, hs.symm⟩
      have ⟨w, hw⟩ := hgoes
      rw [hs, List.append_assoc, List.append_cancel_left_eq] at hw
      exact hrest ⟨s', s'.mem_all, hgoes⟩ 0x3D (by rw [hu, ← hw]; rfl) rfl
    · exact hstart ⟨u, hs.symm⟩

/-- The first code point of a symbol starts no other kind of lexeme. -/
theorem exists_spelling_eq_cons {s : Symbol} (hs : s ≠ .dot) :
    ∃ c tail, s.spelling = c :: tail ∧ Text.isBlank c = false ∧ Text.isDigit c = false ∧
      isIdentStart c = false ∧ c ≠ 0x2E ∧ c ≠ Text.apostrophe ∧ c ≠ Text.quotationMark := by
  cases s with
  | dot => exact absurd rfl hs
  | _ => exact ⟨_, _, rfl, by decide, by decide, by decide, by decide, by decide, by decide⟩

/-! ## Classes of lexemes by their first code point -/

section FirstCodePoint

variable {c : Nat} {t : Text}

theorem blank?_eq_none (h : Text.isBlank c = false) : blank? (c :: t) = none := by
  simp [blank?, h]

theorem splitHex?_eq_none (h : c ≠ 0x30) : splitHex? (c :: t) = none := by
  cases t with
  | nil => rfl
  | cons x t => exact if_neg fun hand ↦ h hand.1

theorem splitFraction_of_ne (h : ∀ c ∈ t.head?, c ≠ 0x2E) : splitFraction t = ([], t) := by
  cases t with
  | nil => rfl
  | cons c t => exact if_neg (h c rfl)

theorem splitExponent_of_isIdentStart_eq_false (h : ∀ c ∈ t.head?, isIdentStart c = false) :
    splitExponent t = ([], t) := by
  cases t with
  | nil => rfl
  | cons c t =>
    have hc : ¬(c = 'e'.toNat ∨ c = 'E'.toNat) := by
      rintro (rfl | rfl) <;> exact absurd (h _ rfl) (by decide)
    exact if_neg fun hand ↦ hc hand.1

theorem number?_eq_none (hdigit : Text.isDigit c = false) (hdot : c ≠ 0x2E) :
    number? (c :: t) = none := by
  have hzero : c ≠ 0x30 := by
    rintro rfl
    exact absurd hdigit (by decide)
  have hspan : Numeral.spanDigits (c :: t) = ([], c :: t) := by
    simp [Numeral.spanDigits, hdigit]
  have hfraction : splitFraction (c :: t) = ([], c :: t) :=
    splitFraction_of_ne fun d hd ↦ by cases hd; exact hdot
  have hdecimal : splitDecimal? (c :: t) = none := by
    simp [splitDecimal?, hspan, hfraction]
  rw [number?, splitNumber?, splitHex?_eq_none hzero, hdecimal]
  rfl

theorem quoted?_eq_none (hmark : c ≠ Text.apostrophe) (hmark' : c ≠ Text.quotationMark) :
    quoted? (c :: t) = none := by
  simp [quoted?, splitQuoted?, hmark, hmark']

theorem ident?_eq_none (h : isIdentStart c = false) : ident? (c :: t) = none := by
  simp [ident?, h]

/-- The first code point of a word is neither white space nor a digit. -/
theorem visible_of_isIdentStart (h : isIdentStart c = true) :
    Text.isBlank c = false ∧ Text.isDigit c = false := by
  have hrange : 0x20 < c ∧ c < 0x7F ∧ ¬(0x30 ≤ c ∧ c ≤ 0x39) := by
    simp only [isIdentStart, Text.isAsciiLetter, Char.reduceToNat, Bool.or_eq_true,
      Bool.and_eq_true, decide_eq_true_eq] at h
    omega
  have hzeros : ∀ z ∈ Text.digitZeros, z = 0x30 ∨ 0x7F ≤ z := by decide
  refine ⟨Text.isBlank_eq_false hrange.1 hrange.2.1, ?_⟩
  rw [Text.isDigit, Text.digitValue?, Option.isSome_map, Option.isSome_eq_false_iff,
    Option.isNone_iff_eq_none, List.find?_eq_none]
  intro z hz
  have := hzeros z hz
  simp only [Bool.and_eq_true, decide_eq_true_eq]
  omega

end FirstCodePoint

/-- The class of a lexeme tells what it stands for. -/
theorem lexeme?_cases {t : Text} {l : Lexeme} (h : lexeme? t = some l) :
    (blank? t = some l ∧ l.token? = none) ∨
    (∃ value, number? t = some l ∧ l.token? = some (.number value)) ∨
    (∃ u, quoted? t = some l ∧ l.token? = some (.text u)) ∨
    (∃ name, ident? t = some l ∧ l.token? = some (.ident name)) ∨
    ∃ s, symbol? t = some l ∧ l.token? = some (.symbol s) := by
  rcases Option.or_eq_some_iff.mp h with hblank | ⟨-, h⟩
  · obtain ⟨-, heq⟩ := Option.ite_none_left_eq_some.mp hblank
    cases heq
    exact .inl ⟨hblank, rfl⟩
  rcases Option.or_eq_some_iff.mp h with hnumber | ⟨-, h⟩
  · obtain ⟨_, -, rfl⟩ := Option.map_eq_some_iff.mp hnumber
    exact .inr (.inl ⟨_, hnumber, rfl⟩)
  rcases Option.or_eq_some_iff.mp h with hquoted | ⟨-, h⟩
  · obtain ⟨_, -, rfl⟩ := Option.map_eq_some_iff.mp hquoted
    exact .inr (.inr (.inl ⟨_, hquoted, rfl⟩))
  rcases Option.or_eq_some_iff.mp h with hident | ⟨-, hsymbol⟩
  · rcases t with _ | ⟨c, t⟩
    · cases hident
    · obtain ⟨-, heq⟩ := Option.ite_none_right_eq_some.mp hident
      cases heq
      exact .inr (.inr (.inr (.inl ⟨_, hident, rfl⟩)))
  · obtain ⟨_, -, rfl⟩ := Option.map_eq_some_iff.mp hsymbol
    exact .inr (.inr (.inr (.inr ⟨_, hsymbol, rfl⟩)))

/-! ## The lexeme of a spelling -/

theorem lexeme?_blank {gap rest : Text} (hne : gap ≠ []) (h : ∀ c ∈ gap, Text.isBlank c = true)
    (hrest : ∀ c ∈ rest.head?, Text.isBlank c = false) :
    lexeme? (gap ++ rest) = some ⟨none, gap.length, rest⟩ := by
  have hblank : blank? (gap ++ rest) = some ⟨none, gap.length, rest⟩ := by
    simp only [blank?, Text.takeWhile_append_of_stop h hrest, Text.dropWhile_append_of_stop h hrest]
    exact if_neg (by simpa using hne)
  rw [lexeme?, hblank, Option.some_or]

theorem lexeme?_digits {digits rest : Text} (hne : digits ≠ [])
    (h : ∀ c ∈ digits, Text.isAsciiDigit c = true) (hrest : EndsWord rest) :
    lexeme? (digits ++ rest) =
      some ⟨some (.number (Number.ofText? digits)), digits.length, rest⟩ := by
  have hhex : splitHex? (digits ++ rest) = none := by
    -- the code point behind a leading zero is a digit or ends the word, and so no `x`
    obtain ⟨z, digits, rfl⟩ := List.exists_cons_of_ne_nil hne
    have hsecond : ∀ x ∈ (digits ++ rest).head?, ¬(x = 'x'.toNat ∨ x = 'X'.toNat) := by
      intro x hx
      cases digits with
      | nil =>
        rintro (rfl | rfl) <;> exact absurd (hrest _ hx).1 (by decide)
      | cons d digits =>
        have hd := h d (by simp)
        cases hx
        rintro (rfl | rfl) <;> exact absurd hd (by decide)
    cases htail : digits ++ rest with
    | nil => rw [List.cons_append, htail]; rfl
    | cons x tail =>
      rw [List.cons_append, htail]
      exact if_neg fun hand ↦ hsecond x (by rw [htail]; rfl) hand.2.1
  have hspan : Numeral.spanDigits (digits ++ rest) = (digits, rest) :=
    Numeral.spanDigits_append h fun c hc ↦ (hrest c hc).2.1
  have hfraction : splitFraction rest = ([], rest) :=
    splitFraction_of_ne fun c hc ↦ (hrest c hc).2.2
  have hexponent : splitExponent rest = ([], rest) := by
    refine splitExponent_of_isIdentStart_eq_false fun c hc ↦ ?_
    have hpart := (hrest c hc).1
    rw [isIdentPart, Bool.or_eq_false_iff] at hpart
    exact hpart.1
  have hdecimal : splitDecimal? (digits ++ rest) = some (digits, rest) := by
    simp [splitDecimal?, hspan, hfraction, hexponent, hne]
  have hblank : blank? (digits ++ rest) = none := by
    obtain ⟨d, digits, rfl⟩ := List.exists_cons_of_ne_nil hne
    exact blank?_eq_none (Text.isBlank_eq_false_of_isAsciiDigit (h d List.mem_cons_self))
  rw [lexeme?, hblank, Option.none_or, number?, splitNumber?, hhex, hdecimal]
  rfl

theorem lexeme?_hex {digits rest : Text} (hne : digits ≠ [])
    (h : ∀ c ∈ digits, isHexDigit c = true) (hrest : ∀ c ∈ rest.head?, isHexDigit c = false) :
    lexeme? (0x30 :: 0x78 :: digits ++ rest) =
      some ⟨some (.number (Number.ofText? (0x30 :: 0x78 :: digits))), digits.length + 2, rest⟩ := by
  have hhex : splitHex? (0x30 :: 0x78 :: (digits ++ rest)) =
      some (0x30 :: 0x78 :: digits, rest) := by
    simp only [splitHex?, Text.takeWhile_append_of_stop h hrest,
      Text.dropWhile_append_of_stop h hrest]
    exact if_pos ⟨rfl, .inl rfl, hne⟩
  have hblank : blank? (0x30 :: 0x78 :: (digits ++ rest)) = none := blank?_eq_none (by decide)
  rw [List.cons_append, List.cons_append, lexeme?, hblank, Option.none_or, number?, splitNumber?,
    hhex]
  rfl

theorem lexeme?_quoted {mark : Nat} {body rest : Text}
    (hmark : mark = Text.apostrophe ∨ mark = Text.quotationMark)
    (h : splitQuotedBody? mark (body ++ mark :: rest) = some (body, rest)) :
    lexeme? (mark :: (body ++ mark :: rest)) =
      some ⟨some (.text (unescape body)), body.length + 2, rest⟩ := by
  have hquoted : quoted? (mark :: (body ++ mark :: rest)) =
      some ⟨some (.text (unescape body)), body.length + 2, rest⟩ := by
    simp [quoted?, splitQuoted?, hmark, h]
  have hother : Text.isBlank mark = false ∧ Text.isDigit mark = false ∧ mark ≠ 0x2E := by
    rcases hmark with rfl | rfl <;> decide
  rw [lexeme?, blank?_eq_none hother.1, number?_eq_none hother.2.1 hother.2.2, hquoted]
  rfl

theorem lexeme?_ident {c : Nat} {word rest : Text} (hc : isIdentStart c = true)
    (h : ∀ c ∈ word, isIdentPart c = true) (hrest : ∀ c ∈ rest.head?, isIdentPart c = false) :
    lexeme? (c :: word ++ rest) = some ⟨some (.ident (c :: word)), word.length + 1, rest⟩ := by
  have hother : c ≠ 0x2E ∧ c ≠ Text.apostrophe ∧ c ≠ Text.quotationMark := by
    refine ⟨?_, ?_, ?_⟩ <;> rintro rfl <;> exact absurd hc (by decide)
  obtain ⟨hblank, hdigit⟩ := visible_of_isIdentStart hc
  rw [List.cons_append, lexeme?, blank?_eq_none hblank, number?_eq_none hdigit hother.1,
    quoted?_eq_none hother.2.1 hother.2.2, ident?, if_pos hc,
    Text.takeWhile_append_of_stop h hrest, Text.dropWhile_append_of_stop h hrest]
  rfl

/-- A symbol other than the point is scanned in front of anything but an equals sign that goes on
with it. -/
theorem lexeme?_symbol {s : Symbol} {rest : Text} (hs : s ≠ .dot)
    (hrest : TakesEquals s → ∀ c ∈ rest.head?, c ≠ 0x3D) :
    lexeme? (s.spelling ++ rest) = some ⟨some (.symbol s), s.spelling.length, rest⟩ := by
  have hsymbol : symbol? (s.spelling ++ rest) =
      some ⟨some (.symbol s), s.spelling.length, rest⟩ := by
    rw [symbol?, splitSymbol?_spelling hrest, Option.map_some]
  obtain ⟨c, tail, hspelling, hblank, hdigit, hident, hdot, hmark, hmark'⟩ :=
    exists_spelling_eq_cons hs
  have hother : blank? (s.spelling ++ rest) = none ∧ number? (s.spelling ++ rest) = none ∧
      quoted? (s.spelling ++ rest) = none ∧ ident? (s.spelling ++ rest) = none := by
    rw [hspelling]
    exact ⟨blank?_eq_none hblank, number?_eq_none hdigit hdot, quoted?_eq_none hmark hmark',
      ident?_eq_none hident⟩
  rw [lexeme?, hother.1, hother.2.1, hother.2.2.1, hother.2.2.2, hsymbol]
  rfl

/-- The point is scanned in front of anything but a digit. -/
theorem lexeme?_dot {rest : Text} (hrest : ∀ c ∈ rest.head?, Text.isDigit c = false) :
    lexeme? (Symbol.dot.spelling ++ rest) = some ⟨some (.symbol .dot), 1, rest⟩ := by
  have hspan : Numeral.spanDigits rest = ([], rest) :=
    Numeral.spanDigits_append_of_stop (List.forall_mem_nil _) hrest
  have hnumber : number? (Symbol.dot.spelling ++ rest) = none := by
    have hwhole : Numeral.spanDigits (0x2E :: rest) = ([], 0x2E :: rest) := rfl
    have hfraction : splitFraction (0x2E :: rest) = ([0x2E], rest) := by
      rw [splitFraction]
      simp [hspan]
    have hdecimal : splitDecimal? (0x2E :: rest) = none := by
      simp [splitDecimal?, hwhole, hfraction]
    have hshown : Symbol.dot.spelling ++ rest = 0x2E :: rest := rfl
    rw [hshown, number?, splitNumber?, splitHex?_eq_none (by decide), hdecimal]
    rfl
  have hsymbol : symbol? (Symbol.dot.spelling ++ rest) = some ⟨some (.symbol .dot), 1, rest⟩ := by
    rw [symbol?, splitSymbol?_spelling fun h ↦ absurd h (by decide), Option.map_some]
    rfl
  rw [lexeme?, hnumber, hsymbol]
  rfl

/-! ## Whole texts -/

/-- A lexeme in front of a text adds its token, if it has one. -/
theorem tokensWithin_lexeme {w rest : Text} {token? : Option TokenKind} (hne : w ≠ [])
    (h : lexeme? (w ++ rest) = some ⟨token?, w.length, rest⟩) (steps position : Nat) :
    tokensWithin (steps + 1) position (w ++ rest) =
      (tokensWithin steps (position + w.length) rest).map
        ((token?.toList.map fun kind ↦ ⟨kind, position⟩) ++ ·) := by
  obtain ⟨c, w, rfl⟩ := List.exists_cons_of_ne_nil hne
  rw [List.cons_append] at h ⊢
  rw [tokensWithin, h]
  dsimp only
  rcases tokensWithin steps (position + (c :: w).length) rest with _ | tokens
  · rfl
  · rcases token? with _ | kind <;> rfl

/-- A text is scanned into tokens of the given kinds, wherever it starts. -/
def Scans (t : Text) (kinds : List TokenKind) : Prop :=
  ∀ ⦃steps⦄, t.length ≤ steps → ∀ position, ∃ tokens : List Token,
    tokensWithin steps position t = .ok (tokens ++ [⟨.stop, position + t.length⟩]) ∧
      tokens.map Token.kind = kinds

theorem scans_nil : Scans [] [] := by
  intro steps _ position
  refine ⟨[], ?_, rfl⟩
  cases steps <;> rfl

theorem Scans.lexeme {w rest : Text} {token? : Option TokenKind} {kinds : List TokenKind}
    (hrest : Scans rest kinds) (hne : w ≠ [])
    (h : lexeme? (w ++ rest) = some ⟨token?, w.length, rest⟩) :
    Scans (w ++ rest) (token?.toList ++ kinds) := by
  intro steps hsteps position
  have hpos := List.length_pos_of_ne_nil hne
  rw [List.length_append] at hsteps
  obtain ⟨steps, rfl⟩ : ∃ k, steps = k + 1 := Nat.exists_eq_succ_of_ne_zero (by omega)
  have hlength : rest.length ≤ steps := by omega
  obtain ⟨tokens, htokens, hkinds⟩ := hrest hlength (position + w.length)
  refine ⟨(token?.toList.map fun kind ↦ ⟨kind, position⟩) ++ tokens, ?_, ?_⟩
  · rw [tokensWithin_lexeme hne h, htokens, List.append_assoc, List.length_append, Nat.add_assoc]
    rfl
  · rw [List.map_append, hkinds]
    rcases token? with _ | kind <;> rfl

/-- The tokens of a text that is scanned as a whole. -/
theorem Scans.exists_tokens {source : Text} {kinds : List TokenKind} (h : Scans source kinds) :
    ∃ body : List Token, tokens source = .ok (body ++ [⟨.stop, source.length⟩]) ∧
      body.map Token.kind = kinds := by
  simpa [tokens] using h (Nat.le_refl source.length) 0

end MockApi.Lexer
