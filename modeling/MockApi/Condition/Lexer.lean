import MockApi.Condition.Token

/-!
# Scanning conditions

The lexeme at the start of a text is found class by class: white space, numbers, quoted texts,
identifiers, symbols. Each class function splits its lexeme off the text, so lexemes and what is
left always make up the text again.
-/

namespace MockApi.Lexer

/-! ## Lexemes -/

/-- Code points that start an identifier. -/
def isIdentStart (c : Nat) : Bool := Text.isAsciiLetter c || c = '_'.toNat || c = '$'.toNat

/-- Code points inside an identifier. -/
def isIdentPart (c : Nat) : Bool := isIdentStart c || Text.isAsciiDigit c

/-- Whether a code point is a hexadecimal digit. -/
def isHexDigit (c : Nat) : Bool := (Text.hexDigit? c).isSome

/-- Splits an exponent off a text, or nothing. -/
def splitExponent (t : Text) : Text × Text :=
  match t with
  | e :: rest =>
    let (sign, digits) := match rest with
      | c :: rest' => if c = '+'.toNat ∨ c = '-'.toNat then ([c], rest') else ([], rest)
      | [] => ([], [])
    let (exponent, left) := Numeral.spanDigits digits
    if (e = 'e'.toNat ∨ e = 'E'.toNat) ∧ exponent ≠ [] then (e :: sign ++ exponent, left)
    else ([], t)
  | [] => ([], [])

/-- Splits a point and the digits after it off a text, or nothing. -/
def splitFraction (t : Text) : Text × Text :=
  match t with
  | c :: rest =>
    if c = '.'.toNat then
      let (digits, left) := Numeral.spanDigits rest
      (c :: digits, left)
    else ([], t)
  | [] => ([], [])

/-- Splits a hexadecimal number off a text. -/
def splitHex? : Text → Option (Text × Text)
  | z :: x :: rest =>
    let digits := rest.takeWhile isHexDigit
    if z = '0'.toNat ∧ (x = 'x'.toNat ∨ x = 'X'.toNat) ∧ digits ≠ [] then
      some (z :: x :: digits, rest.dropWhile isHexDigit)
    else none
  | _ => none

/-- Splits a decimal number off a text. There is a digit before or after the point. -/
def splitDecimal? (t : Text) : Option (Text × Text) :=
  let (whole, rest) := Numeral.spanDigits t
  let (fraction, rest) := splitFraction rest
  let (exponent, rest) := splitExponent rest
  if whole.isEmpty ∧ fraction.length < 2 then none
  else some (whole ++ fraction ++ exponent, rest)

/-- Splits a number off a text. -/
def splitNumber? (t : Text) : Option (Text × Text) := (splitHex? t).or (splitDecimal? t)

/-- Splits what stands before a closing mark off a text, and the mark. A backslash takes the code
point after it along, and line feeds are not allowed. -/
def splitQuotedBody? (mark : Nat) : Text → Option (Text × Text)
  | [] => none
  | c :: rest =>
    if c = mark then some ([], rest)
    else if c = '\n'.toNat then none
    else if c = Text.backslash then
      match rest with
      | [] => none
      | e :: rest =>
        if e = '\n'.toNat then none
        else (splitQuotedBody? mark rest).map fun (body, left) ↦ (c :: e :: body, left)
    else (splitQuotedBody? mark rest).map fun (body, left) ↦ (c :: body, left)

/-- Splits a quoted text off a text: the part between the marks, and what is left. -/
def splitQuoted? : Text → Option (Nat × Text × Text)
  | [] => none
  | c :: rest =>
    if c = Text.apostrophe ∨ c = Text.quotationMark then
      (splitQuotedBody? c rest).map fun (body, left) ↦ (c, body, left)
    else none

/-- Splits a symbol off a text. -/
def splitSymbol? (t : Text) : Option (Symbol × Text) :=
  Symbol.all.findSome? fun s ↦ (s.spelling.isPrefixOf? t).map fun left ↦ (s, left)

/-! ## Escapes -/

/-- The code point of a short escape. -/
def shortEscape? (letter : Nat) : Option Nat :=
  if letter = 'n'.toNat then some 0x0A
  else if letter = 't'.toNat then some 0x09
  else if letter = 'r'.toNat then some 0x0D
  else if letter = 'b'.toNat then some 0x08
  else if letter = 'f'.toNat then some 0x0C
  else if letter = 'v'.toNat then some 0x0B
  else if letter = '0'.toNat then some 0
  else none

/-- The code point of a numbered escape with its digits after the letter. -/
def numberedEscape? (letter : Nat) (digits : Text) : Option Nat :=
  if letter = 'u'.toNat ∧ digits.length = 4 ∨ letter = 'x'.toNat ∧ digits.length = 2 then
    Text.hexValue? digits
  else none

/-- The text that a quoted body writes. An escape of no meaning stands for the escaped code
point. -/
def unescape : Text → Text
  | [] => []
  | [c] => [c]
  | c :: letter :: rest =>
    if c ≠ Text.backslash then c :: unescape (letter :: rest)
    else match shortEscape? letter with
      | some c => c :: unescape rest
      | none => match rest with
        | a :: b :: rest₂ => match numberedEscape? letter [a, b] with
          | some c => c :: unescape rest₂
          | none => match rest₂ with
            | d :: e :: rest₄ => match numberedEscape? letter [a, b, d, e] with
              | some c => c :: unescape rest₄
              | none => letter :: unescape (a :: b :: d :: e :: rest₄)
            | [d] => letter :: unescape [a, b, d]
            | [] => letter :: unescape [a, b]
        | [a] => letter :: unescape [a]
        | [] => [letter]

/-! ## Tokens -/

/-- A lexeme at the start of a text: its token, unless it is white space, its length, and what is
left. -/
structure Lexeme where
  /-- The token of the lexeme. -/
  token? : Option TokenKind
  /-- The number of code points of the lexeme. -/
  length : Nat
  /-- The text after the lexeme. -/
  left : Text

/-- The white space at the start of a text. -/
def blank? (t : Text) : Option Lexeme :=
  let blanks := t.takeWhile Text.isBlank
  if blanks.isEmpty then none else some ⟨none, blanks.length, t.dropWhile Text.isBlank⟩

/-- The number at the start of a text. -/
def number? (t : Text) : Option Lexeme :=
  (splitNumber? t).map fun (lexeme, left) ↦
    ⟨some (.number (Number.ofText? lexeme)), lexeme.length, left⟩

/-- The quoted text at the start of a text. -/
def quoted? (t : Text) : Option Lexeme :=
  (splitQuoted? t).map fun (_, body, left) ↦ ⟨some (.text (unescape body)), body.length + 2, left⟩

/-- The identifier at the start of a text. -/
def ident? : Text → Option Lexeme
  | [] => none
  | c :: rest =>
    if isIdentStart c then
      let name := c :: rest.takeWhile isIdentPart
      some ⟨some (.ident name), name.length, rest.dropWhile isIdentPart⟩
    else none

/-- The symbol at the start of a text. -/
def symbol? (t : Text) : Option Lexeme :=
  (splitSymbol? t).map fun (s, left) ↦ ⟨some (.symbol s), s.spelling.length, left⟩

/-- The lexeme at the start of a text, of the first class that fits. -/
def lexeme? (t : Text) : Option Lexeme :=
  (blank? t).or ((number? t).or ((quoted? t).or ((ident? t).or (symbol? t))))

/-- The tokens of a text at a place, in at most `steps` lexemes. -/
def tokensWithin : Nat → Nat → Text → Except ConditionError (List Token)
  | _, position, [] => .ok [⟨.stop, position⟩]
  | 0, position, c :: _ => .error (.unexpectedCharacter c position)
  | steps + 1, position, c :: rest =>
    match lexeme? (c :: rest) with
    | none => .error (.unexpectedCharacter c position)
    | some ⟨token?, length, left⟩ => do
      let tokens ← tokensWithin steps (position + length) left
      return match token? with
        | some kind => ⟨kind, position⟩ :: tokens
        | none => tokens

/-- The tokens of a condition, closed by the one that marks its end. -/
def tokens (source : Text) : Except ConditionError (List Token) :=
  tokensWithin source.length 0 source

/-! ## Lexemes tile the text -/

theorem splitExponent_append (t : Text) : (splitExponent t).1 ++ (splitExponent t).2 = t := by
  unfold splitExponent
  split
  · rename_i e rest
    cases rest with
    | nil => simp [Numeral.spanDigits]
    | cons c rest =>
      by_cases hs : c = '+'.toNat ∨ c = '-'.toNat
      · simp only [hs, if_true, Numeral.spanDigits]
        split <;> simp [List.takeWhile_append_dropWhile]
      · simp only [hs, if_false, Numeral.spanDigits]
        split <;> simp [List.takeWhile_append_dropWhile]
  · rfl

theorem splitFraction_append (t : Text) : (splitFraction t).1 ++ (splitFraction t).2 = t := by
  unfold splitFraction
  split
  · split <;> simp [Numeral.spanDigits, List.takeWhile_append_dropWhile]
  · rfl

theorem splitHex?_append {t lexeme left : Text} (h : splitHex? t = some (lexeme, left)) :
    t = lexeme ++ left ∧ lexeme ≠ [] := by
  unfold splitHex? at h
  split at h
  · rename_i z x rest
    simp only [Option.ite_none_right_eq_some, Option.some.injEq, Prod.mk.injEq] at h
    obtain ⟨-, rfl, rfl⟩ := h
    simp [List.takeWhile_append_dropWhile]
  · simp at h

theorem splitDecimal?_append {t lexeme left : Text} (h : splitDecimal? t = some (lexeme, left)) :
    t = lexeme ++ left ∧ lexeme ≠ [] := by
  simp only [splitDecimal?, Option.ite_none_left_eq_some, Option.some.injEq, Prod.mk.injEq] at h
  obtain ⟨hne, rfl, rfl⟩ := h
  have hw : (Numeral.spanDigits t).1 ++ (Numeral.spanDigits t).2 = t := by
    simp [Numeral.spanDigits, List.takeWhile_append_dropWhile]
  constructor
  · rw [List.append_assoc, splitExponent_append, List.append_assoc, splitFraction_append, hw]
  · intro hnil
    simp only [List.append_eq_nil_iff] at hnil
    exact hne ⟨by simp [hnil.1.1], by simp [hnil.1.2]⟩

theorem splitNumber?_append {t lexeme left : Text} (h : splitNumber? t = some (lexeme, left)) :
    t = lexeme ++ left ∧ lexeme ≠ [] := by
  unfold splitNumber? at h
  rcases Option.or_eq_some_iff.mp h with h | ⟨-, h⟩
  · exact splitHex?_append h
  · exact splitDecimal?_append h

theorem splitQuotedBody?_append {mark : Nat} {t body left : Text}
    (h : splitQuotedBody? mark t = some (body, left)) : t = body ++ mark :: left := by
  fun_induction splitQuotedBody? mark t generalizing body left with
  | case1 => simp at h
  | case2 => simp_all
  | case3 => simp at h
  | case4 => simp at h
  | case5 => simp at h
  | case6 _ _ _ _ _ ih =>
    obtain ⟨⟨b, l⟩, hs, heq⟩ := Option.map_eq_some_iff.mp h
    cases heq
    simp_all
  | case7 c rest hc hl hb ih =>
    obtain ⟨⟨b, l⟩, hs, heq⟩ := Option.map_eq_some_iff.mp h
    cases heq
    simp [ih hs]

theorem splitSymbol?_append {t left : Text} {s : Symbol}
    (h : splitSymbol? t = some (s, left)) : t = s.spelling ++ left := by
  unfold splitSymbol? at h
  obtain ⟨s', -, hs⟩ := List.exists_of_findSome?_eq_some h
  obtain ⟨l, hl, heq⟩ := Option.map_eq_some_iff.mp hs
  cases heq
  exact Text.eq_append_of_isPrefixOf? hl

/-- A lexeme is not empty, and what it leaves is the text after it. -/
theorem exists_eq_append_of_lexeme? {t : Text} {l : Lexeme} (h : lexeme? t = some l) :
    ∃ lexeme, t = lexeme ++ l.left ∧ lexeme.length = l.length ∧ lexeme ≠ [] := by
  unfold lexeme? at h
  rcases Option.or_eq_some_iff.mp h with h | ⟨-, h⟩
  · simp only [blank?, Option.ite_none_left_eq_some, Option.some.injEq] at h
    obtain ⟨hne, rfl⟩ := h
    exact ⟨_, (List.takeWhile_append_dropWhile).symm, rfl, by simpa using hne⟩
  rcases Option.or_eq_some_iff.mp h with h | ⟨-, h⟩
  · obtain ⟨⟨lexeme, left⟩, hs, rfl⟩ := Option.map_eq_some_iff.mp h
    exact ⟨lexeme, (splitNumber?_append hs).1, rfl, (splitNumber?_append hs).2⟩
  rcases Option.or_eq_some_iff.mp h with h | ⟨-, h⟩
  · obtain ⟨⟨mark, body, left⟩, hs, rfl⟩ := Option.map_eq_some_iff.mp h
    refine ⟨mark :: body ++ [mark], ?_, by simp, by simp⟩
    unfold splitQuoted? at hs
    split at hs
    · simp at hs
    · simp only [Option.ite_none_right_eq_some] at hs
      obtain ⟨-, hs⟩ := hs
      obtain ⟨⟨b, r⟩, hb, heq⟩ := Option.map_eq_some_iff.mp hs
      cases heq
      simp [splitQuotedBody?_append hb]
  rcases Option.or_eq_some_iff.mp h with h | ⟨-, h⟩
  · unfold ident? at h
    split at h
    · simp at h
    · simp only [Option.ite_none_right_eq_some, Option.some.injEq] at h
      obtain ⟨-, rfl⟩ := h
      exact ⟨_, by simp [List.takeWhile_append_dropWhile], rfl, by simp⟩
  · obtain ⟨⟨s, left⟩, hs, rfl⟩ := Option.map_eq_some_iff.mp h
    exact ⟨s.spelling, splitSymbol?_append hs, rfl, by cases s <;> decide⟩

end MockApi.Lexer
