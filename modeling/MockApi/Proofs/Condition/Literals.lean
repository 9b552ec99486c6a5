import MockApi.Proofs.Condition.Levels
import MockApi.Proofs.Guarded.Lexer
import MockApi.Proofs.Json.Literals

/-!
# Quoted texts of documents in conditions

A quoted text of a document can be copied into a condition: there it is one token as well, and each
of its parts stands for what it stands for by itself. The lexer has no memory from one escape to the
next, and so it does not join surrogates. Copies mean the same as the original exactly if no escaped
high surrogate stands in front of an escaped low one.
-/

namespace MockApi.LiteralPart

variable {stack : Stack}

variable {rest : Text}

/-- Code points of no special meaning go on with a quoted text. -/
theorem splitQuotedBody?_append_of_ne {mark : Nat} {front : Text} (rest : Text)
    (h : ∀ c ∈ front, c ≠ mark ∧ c ≠ '\n'.toNat ∧ c ≠ Text.backslash) :
    Lexer.splitQuotedBody? mark (front ++ rest) =
      (Lexer.splitQuotedBody? mark rest).map fun (body, left) ↦ (front ++ body, left) := by
  induction front with
  | nil => simp
  | cons c front ih =>
    obtain ⟨⟨hmark, hfeed, hbackslash⟩, hfront⟩ := List.forall_mem_cons.mp h
    rw [List.cons_append, Lexer.splitQuotedBody?_of_ne hmark hfeed hbackslash, ih hfront,
      Option.map_map]
    rfl

theorem ne_of_isSome_hexDigit? {d : Nat} (h : (Text.hexDigit? d).isSome = true) :
    d ≠ Text.quotationMark ∧ d ≠ '\n'.toNat ∧ d ≠ Text.backslash := by
  refine ⟨?_, ?_, ?_⟩ <;> rintro rfl <;> exact absurd h (by decide)

/-- A part is split off a quoted text as a whole. -/
theorem splitQuotedBody?_source (part : LiteralPart) :
    Lexer.splitQuotedBody? Text.quotationMark (part.source ++ rest) =
      (Lexer.splitQuotedBody? Text.quotationMark rest).map
        fun (body, left) ↦ (part.source ++ body, left) := by
  have hmark : Text.backslash ≠ Text.quotationMark := by decide
  cases part with
  | raw c hcontrol hquote hbackslash =>
    refine Lexer.splitQuotedBody?_of_ne hquote ?_ hbackslash rest
    rintro rfl
    exact absurd hcontrol (by decide)
  | short letter c h =>
    refine Lexer.splitQuotedBody?_backslash hmark ?_ rest
    rintro rfl
    cases h
  | numbered digits unit hlength h =>
    have hdigits := Guarded.isSome_hexDigit?_of_hexValue? h
    have hfront := splitQuotedBody?_append_of_ne rest
      fun d hd ↦ ne_of_isSome_hexDigit? (hdigits d hd)
    rw [source, List.cons_append, List.cons_append,
      Lexer.splitQuotedBody?_backslash hmark (by decide), hfront, Option.map_map]
    rfl

/-- The parts are split off up to the closing mark. -/
theorem splitQuotedBody?_parts (parts : List LiteralPart) :
    Lexer.splitQuotedBody? Text.quotationMark
        (parts.flatMap source ++ Text.quotationMark :: rest) =
      some (parts.flatMap source, rest) := by
  induction parts with
  | nil => exact Lexer.splitQuotedBody?_mark Text.quotationMark rest
  | cons part parts ih =>
    rw [List.flatMap_cons, List.append_assoc, splitQuotedBody?_source, ih]
    rfl

/-- Short escapes of documents have a meaning in conditions, or stand for the escaped code point and
have none. -/
theorem unescape_short {letter c : Nat} (h : Json.unescape? letter = some c) (t : Text) :
    Lexer.unescape (Text.backslash :: letter :: t) = c :: Lexer.unescape t := by
  have hcases : Lexer.shortEscape? letter = some c ∨ Lexer.shortEscape? letter = none ∧
      letter ≠ 'x'.toNat ∧ letter ≠ 'u'.toNat ∧ letter = c := by
    unfold Json.unescape? at h
    split_ifs at h with hself hb hf hn hr ht
    · obtain rfl := Option.some.inj h
      rcases hself with rfl | rfl | rfl <;> exact .inr (by decide)
    all_goals
      obtain rfl := Option.some.inj h
      subst letter
      exact .inl (by decide)
  rcases hcases with hshort | ⟨hshort, hx, hu, rfl⟩
  · exact Lexer.unescape_short hshort t
  · exact Lexer.unescape_other hshort hx hu t

/-- A part is unescaped to what it stands for by itself. -/
theorem unescape_source (part : LiteralPart) (t : Text) :
    Lexer.unescape (part.source ++ t) = part.code :: Lexer.unescape t := by
  cases part with
  | raw c hcontrol hmark hbackslash => exact Lexer.unescape_of_ne hbackslash t
  | short letter c h => exact unescape_short h t
  | numbered digits unit hlength h =>
    have hshort : Lexer.shortEscape? 'u'.toNat = none := by decide
    have hwidth : Guarded.escapeWidth 'u'.toNat = digits.length := hlength.symm
    have hnumbered : Lexer.numberedEscape? 'u'.toNat digits = some unit :=
      (if_pos (.inl ⟨rfl, hlength⟩)).trans h
    rw [source, List.cons_append, List.cons_append, Guarded.unescape_backslash, hshort, hwidth,
      List.take_left, List.drop_left]
    simp only [hnumbered, code]

theorem unescape_parts (parts : List LiteralPart) :
    Lexer.unescape (parts.flatMap source) = parts.map code := by
  induction parts with
  | nil => rfl
  | cons part parts ih => rw [List.flatMap_cons, unescape_source, ih, List.map_cons]

/-! ## The token of a quoted text -/

theorem literal_append (parts : List LiteralPart) (rest : Text) : literal parts ++ rest =
    Text.quotationMark :: (parts.flatMap source ++ Text.quotationMark :: rest) := by
  simp [literal]

theorem lexeme?_literal (parts : List LiteralPart) (rest : Text) :
    Lexer.lexeme? (literal parts ++ rest) =
      some ⟨some (.text (parts.map code)), (literal parts).length, rest⟩ := by
  have hlength : (literal parts).length = (parts.flatMap source).length + 2 := by simp [literal]
  rw [literal_append, Lexer.lexeme?_quoted (.inr rfl) (splitQuotedBody?_parts parts),
    unescape_parts, hlength]

/-- **A quoted text of a document is one token.** Its parts stand for what they stand for by
themselves. -/
theorem tokens_literal (parts : List LiteralPart) : Lexer.tokens (literal parts) =
    .ok [⟨.text (parts.map code), 0⟩, ⟨.stop, (literal parts).length⟩] := by
  have hlexeme := lexeme?_literal parts []
  obtain ⟨steps, hsteps⟩ : ∃ steps, (literal parts).length = steps + 1 := ⟨_, rfl⟩
  have htokens := Lexer.tokensWithin_lexeme (by simp [literal]) hlexeme steps 0
  rw [List.append_nil] at htokens
  rw [Lexer.tokens, hsteps, htokens, ← hsteps, Nat.zero_add]
  cases steps <;> rfl

/-- A quoted text of a document spells a literal. -/
theorem spells_literal (parts : List LiteralPart) :
    Spells (literal parts) .primary 1 (.literal (.text (parts.map code))) :=
  Spells.token ⟨_, _, rfl, by decide, by decide⟩ .text fun rest _ ↦ lexeme?_literal parts rest

/-! ## Comparing with the original -/

/-- The comparison of the body with a copy of a quoted text. -/
theorem compile_body_literal (parts : List LiteralPart) :
    Condition.compile ("body === " ++ literal parts) = .ok ⟨"body === " ++ literal parts,
      .binary .strictEqual (.name .body) (.literal (.text (parts.map code)))⟩ := by
  have hbody : Spells BoundName.body.spelling (.chain .equality) 1 (.name .body) :=
    (Spells.name .body).loosen (by decide)
  have hliteral : Spells (literal parts) Level.equality.operandKind 1
      (.literal (.text (parts.map code))) := (spells_literal parts).loosen (by decide)
  have hgap : ∀ c ∈ (↑" " : Text), Text.isBlank c = true := by decide
  exact (hbody.operator hgap (.binary .strictEqual) hliteral).compile_of_le_four (by decide)

instance (parts : List LiteralPart) : Decidable (Pairless parts) :=
  decidable_of_iff _ map_code_eq_decode_iff

/-- The comparison finds the original and the copy equal if no surrogates had to be joined. -/
theorem test_body_literal {parts : List LiteralPart} {source : Text} {bindings : Bindings}
    (h : bindings.body = .text (decode parts)) :
    Condition.test ⟨source, .binary .strictEqual (.name .body)
      (.literal (.text (parts.map code)))⟩ bindings = .ok (decide (Pairless parts)) := by
  have hvalue : Expr.evaluate bindings (.binary .strictEqual (.name .body)
      (.literal (.text (parts.map code)))) =
        .ok (.bool (bindings.body.strictEquals (.text (parts.map code)))) :=
    Expr.evaluate_of_evaluateWithin_four rfl
  have hequal : (Value.text (decode parts)).strictEquals (.text (parts.map code)) =
      decide (Pairless parts) :=
    decide_eq_decide.mpr (eq_comm.trans map_code_eq_decode_iff)
  rw [Condition.test, Condition.evaluate, hvalue, h, hequal]
  rfl

/-- **Quoted texts of documents in conditions.** The texts between quotation marks that the reader
accepts are made of parts. In a condition each of them is one token, with the text that the reader
gives if and only if no escaped high surrogate stands in front of an escaped low one; just then the
copy equals the original. -/
theorem literal_in_condition (namesNonFinite : Bool) :
    (∀ body, (∃ value, Json.read namesNonFinite
        (Text.quotationMark :: (body ++ [Text.quotationMark])) = .ok value) ↔
      ∃ parts, Text.quotationMark :: (body ++ [Text.quotationMark]) = literal parts) ∧
    ∀ parts, Json.read namesNonFinite (literal parts) = .ok (.text (decode parts)) ∧
      Lexer.tokens (literal parts) =
        .ok [⟨.text (parts.map code), 0⟩, ⟨.stop, (literal parts).length⟩] ∧
      (parts.map code = decode parts ↔ Pairless parts) ∧
      ∃ condition, Condition.compile ("body === " ++ literal parts) = .ok condition ∧
        ∀ bindings : Bindings, bindings.body = .text (decode parts) →
          condition.test bindings = .ok (decide (Pairless parts)) :=
  ⟨fun _ ↦ exists_read_iff_exists_literal, fun parts ↦
    ⟨read_literal namesNonFinite parts, tokens_literal parts, map_code_eq_decode_iff,
      _, compile_body_literal parts, fun _ ↦ test_body_literal⟩⟩

/-- A short escape and a numbered one mean the same in a document and in a condition. -/
theorem literal_in_condition_escapes :
    letI : Stack := .usual
    ∃ parts,
    literal parts = "\"\\n\\u00e9\"" ∧ Json.read true (literal parts) = .ok (.text [0x0A, 0xE9]) ∧
      ∃ condition, Condition.compile ("body === " ++ literal parts) = .ok condition ∧
        condition.test ⟨.null, .null, .text [0x0A, 0xE9]⟩ = .ok true := by
  refine ⟨[short 'n'.toNat 0x0A rfl, numbered "00e9" 0xE9 (by decide) (by decide)], by decide, ?_⟩
  obtain ⟨hread, -, -, condition, hcompile, htest⟩ := (@literal_in_condition .usual true).2
    [short 'n'.toNat 0x0A rfl, numbered "00e9" 0xE9 (by decide) (by decide)]
  exact ⟨hread, condition, hcompile, htest ⟨.null, .null, .text [0x0A, 0xE9]⟩ rfl⟩

/-- A code point beyond sixteen bits, as its two surrogates in escapes. -/
def surrogates : List LiteralPart :=
  [numbered "d83d" 0xD83D (by decide) (by decide), numbered "de00" 0xDE00 (by decide) (by decide)]

/-- Its escapes are read back as one code point in a document, and as two in a condition. -/
theorem literal_surrogates :
    letI : Stack := .usual
    literal surrogates = "\"\\ud83d\\ude00\"" ∧
      Json.read true (literal surrogates) = .ok (.text [0x1F600]) ∧
      Lexer.tokens (literal surrogates) =
        .ok [⟨.text [0xD83D, 0xDE00], 0⟩, ⟨.stop, 14⟩] := by
  refine ⟨by decide, ?_, ?_⟩
  · rw [read_literal]
    rfl
  · rw [tokens_literal]
    rfl

end MockApi.LiteralPart
