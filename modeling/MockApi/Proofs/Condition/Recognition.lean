import Mathlib.Algebra.Ring.Int.Defs
import MockApi.Proofs.Condition.Completeness
import MockApi.Proofs.Condition.Scanning

/-!
# The parser recognizes the grammar

The tokens of a text are a body and the closing token, and the parser accepts them exactly if the
body is an expression of the grammar; its tree is then the only one. Everything else is refused. A
refusal either has words, which are the message of the error, or it complains of an integer with
more digits than can be written, and then there are no words for the token.

Giving up as too deep is a matter of the limit alone: it does not happen with more levels than there
are tokens.
-/

namespace MockApi

variable {stack : Stack}

/-! ## The tokens of a text -/

namespace Lexer

theorem ne_stop_of_lexeme? {t : Text} {l : Lexeme} (h : lexeme? t = some l) :
    l.token? ≠ some .stop := by
  rcases lexeme?_cases h with ⟨-, hkind⟩ | ⟨_, -, hkind⟩ | ⟨_, -, hkind⟩ | ⟨_, -, hkind⟩ |
    ⟨_, -, hkind⟩ <;> simp [hkind]

/-- The tokens from a place on end with the closing token, at the end of the text. -/
theorem exists_of_tokensWithin {steps position : Nat} {t : Text} {tokens : List Token}
    (h : tokensWithin steps position t = .ok tokens) :
    ∃ body, tokens = body ++ [⟨.stop, position + t.length⟩] ∧
      TokenKind.stop ∉ body.map Token.kind := by
  induction steps generalizing position t tokens with
  | zero =>
    cases t with
    | nil =>
      cases h
      exact ⟨[], rfl, by simp⟩
    | cons c rest => cases h
  | succ steps ih =>
    cases t with
    | nil =>
      cases h
      exact ⟨[], rfl, by simp⟩
    | cons c rest =>
      unfold tokensWithin at h
      cases hlexeme : lexeme? (c :: rest) with
      | none => simp [hlexeme] at h
      | some l =>
        simp only [hlexeme] at h
        obtain ⟨inner, hinner, hresult⟩ := bind_eq_ok_iff.mp h
        obtain ⟨body, rfl, hstop⟩ := ih hinner
        obtain ⟨lexeme, htext, hlength, -⟩ := exists_eq_append_of_lexeme? hlexeme
        have hend : position + l.length + l.left.length = position + (c :: rest).length := by
          rw [htext, List.length_append, hlength, Nat.add_assoc]
        rw [hend] at hresult
        cases htoken : l.token? with
        | none =>
          simp only [htoken] at hresult
          cases hresult
          exact ⟨body, rfl, hstop⟩
        | some kind =>
          simp only [htoken] at hresult
          cases hresult
          have hkind := ne_stop_of_lexeme? hlexeme
          refine ⟨⟨kind, position⟩ :: body, rfl, ?_⟩
          simp only [List.map_cons, List.mem_cons, not_or]
          exact ⟨fun heq ↦ hkind (htoken.trans (congrArg some heq.symm)), hstop⟩

/-- The tokens of a text are a body and the closing token. -/
theorem exists_of_tokens {source : Text} {tokens : List Token}
    (h : Lexer.tokens source = .ok tokens) :
    ∃ body, tokens = body ++ [⟨.stop, source.length⟩] ∧ TokenKind.stop ∉ body.map Token.kind := by
  simpa using exists_of_tokensWithin h

end Lexer

/-! ## Errors and their words -/

/-- An error has words: the token that it complains of, if any, can be shown. -/
def ConditionError.HasWords : ConditionError → Prop
  | .unexpectedToken token => ∃ shown, token.kind.shown = .ok shown
  | _ => True

/-- A token can be shown unless it is an integer with too many digits. -/
theorem TokenKind.exists_shown_or (kind : TokenKind) :
    (∃ shown, kind.shown = .ok shown) ∨ ∃ n : Int, kind = .number (some (.int n)) ∧
      decimalDigitLimit < (Nat.toDigits 10 n.natAbs).length := by
  cases kind with
  | number value =>
    cases value with
    | none => exact .inl ⟨_, rfl⟩
    | some x =>
      cases x with
      | double x => exact .inl ⟨_, rfl⟩
      | int n =>
        by_cases h : (Nat.toDigits 10 n.natAbs).length ≤ decimalDigitLimit
        · exact .inl ⟨Text.ofInt n, if_pos h⟩
        · exact .inr ⟨n, rfl, Nat.lt_of_not_le h⟩
  | text | ident | symbol | stop => exact .inl ⟨_, rfl⟩

namespace Parser

/-! ## Refusals of the readers -/

/-- What a reader refuses, it refuses in words, and as too deep only if there are at least as many
tokens as levels. -/
def RefusesInWords (levels : Nat) (read : Reader) : Prop :=
  ∀ ⦃tokens error⦄, read tokens = .error error →
    error.HasWords ∧ (error = .tooDeep → levels ≤ tokens.length)

/-- A refusal stays one with other levels and tokens, if these are as many as need be. -/
theorem hasWords_mono {error : ConditionError} {levels levels' length length' : Nat}
    (h : error.HasWords ∧ (error = .tooDeep → levels ≤ length))
    (hle : levels ≤ length → levels' ≤ length') :
    error.HasWords ∧ (error = .tooDeep → levels' ≤ length') :=
  ⟨h.1, fun heq ↦ hle (h.2 heq)⟩

theorem hasWords_of_expect {s : Symbol} {tokens : List Token} {error : ConditionError}
    (h : expect s tokens = .error error) : error.HasWords ∧ error ≠ .tooDeep := by
  cases tokens with
  | nil =>
    cases h
    exact ⟨trivial, by simp⟩
  | cons token tokens =>
    simp only [expect] at h
    split at h
    · cases h
    · cases h
      exact ⟨trivial, by simp⟩

theorem RefusesInWords.chainFrom {level : Level} {levels : Nat} {read : Reader}
    (hread : RefusesInWords levels read) (hshort : Shortens read) {steps : Nat} {left : Expr}
    {tokens : List Token} {error : ConditionError}
    (h : Parser.chainFrom level read steps left tokens = .error error) :
    error.HasWords ∧ (error = .tooDeep → levels ≤ tokens.length) := by
  induction steps generalizing left tokens with
  | zero => cases h
  | succ steps ih =>
    unfold Parser.chainFrom at h
    split at h
    · cases h
    · rename_i op after haccept
      obtain ⟨s, position, rfl, -⟩ := accept?_eq_some_iff.mp haccept
      rw [List.length_cons]
      rcases bind_eq_error_iff.mp h with hright | ⟨⟨right, after'⟩, hright, hloop⟩
      · exact hasWords_mono (hread hright) (by omega)
      · have hlt := hshort hright
        exact hasWords_mono (ih hloop) (by omega)

theorem RefusesInWords.chain {levels : Nat} {read : Reader} (hread : RefusesInWords levels read)
    (level : Level) (hshort : Shortens read) :
    RefusesInWords levels (Parser.chain level read) := by
  intro tokens error h
  rcases bind_eq_error_iff.mp h with hleft | ⟨⟨left, after⟩, hleft, hloop⟩
  · exact hread hleft
  · have hlt := hshort hleft
    exact hasWords_mono (hread.chainFrom hshort hloop) (by omega)

theorem RefusesInWords.expression {levels bound : Nat} {read : Reader}
    (hread : RefusesInWords levels read) (hphrases : ReadsPhrases .unary bound read) :
    RefusesInWords levels (Parser.expression read) := by
  have hshort (level : Level) : Shortens (Parser.operandReader level read) :=
    (hphrases.operandReader level).shortens
  have hmultiplicative := hread.chain .multiplicative (hshort .multiplicative)
  have hadditive := hmultiplicative.chain .additive (hshort .additive)
  have hrelational := hadditive.chain .relational (hshort .relational)
  have hequality := hrelational.chain .equality (hshort .equality)
  have hand := hequality.chain .and (hshort .and)
  exact hand.chain .or (hshort .or)

theorem RefusesInWords.primary {levels : Nat} {read : Reader} (hread : RefusesInWords levels read) :
    RefusesInWords (levels + 1) (Parser.primary read) := by
  intro tokens error h
  unfold Parser.primary at h
  split at h
  · cases h
  · cases h
  · split at h
    · cases h
    · cases h
    · cases h
      exact ⟨trivial, by simp⟩
  · rw [List.length_cons]
    rcases bind_eq_error_iff.mp h with hinner | ⟨⟨inner, after⟩, hinner, hparen⟩
    · exact hasWords_mono (hread hinner) Nat.succ_le_succ
    · rcases bind_eq_error_iff.mp hparen with hclosed | ⟨closed, -, hresult⟩
      · obtain ⟨hwords, hdeep⟩ := hasWords_of_expect hclosed
        exact ⟨hwords, fun heq ↦ absurd heq hdeep⟩
      · cases hresult
  · cases h
    exact ⟨⟨_, rfl⟩, by simp⟩
  · cases h
    exact ⟨trivial, by simp⟩
  · cases h
    exact ⟨trivial, by simp⟩

theorem RefusesInWords.memberFrom {levels : Nat} {read : Reader}
    (hread : RefusesInWords levels read) (hshort : Shortens read) {steps : Nat} {target : Expr}
    {tokens : List Token} {error : ConditionError}
    (h : Parser.memberFrom read steps target tokens = .error error) :
    error.HasWords ∧ (error = .tooDeep → levels + 1 ≤ tokens.length) := by
  induction steps generalizing target tokens with
  | zero => cases h
  | succ steps ih =>
    unfold Parser.memberFrom at h
    split at h
    · rw [List.length_cons, List.length_cons]
      exact hasWords_mono (ih h) (by omega)
    · cases h
      exact ⟨trivial, by simp⟩
    · cases h
      exact ⟨trivial, by simp⟩
    · rw [List.length_cons]
      rcases bind_eq_error_iff.mp h with hkey | ⟨⟨key, after⟩, hkey, hbracket⟩
      · exact hasWords_mono (hread hkey) Nat.succ_le_succ
      · have hlt := hshort hkey
        rcases bind_eq_error_iff.mp hbracket with hclosed | ⟨closed, hclosed, hloop⟩
        · obtain ⟨hwords, hdeep⟩ := hasWords_of_expect hclosed
          exact ⟨hwords, fun heq ↦ absurd heq hdeep⟩
        · obtain ⟨closing, rfl⟩ := expect_eq_ok_iff.mp hclosed
          rw [List.length_cons] at hlt
          exact hasWords_mono (ih hloop) (by omega)
    · cases h

theorem RefusesInWords.member {levels : Nat} {read : Reader} (hread : RefusesInWords levels read)
    (hphrases : ReadsPhrases (.chain .or) levels read) :
    RefusesInWords (levels + 1) (Parser.member read) := by
  intro tokens error h
  rcases bind_eq_error_iff.mp h with htarget | ⟨⟨target, after⟩, htarget, hloop⟩
  · exact hread.primary htarget
  · have hlt := hphrases.primary.shortens htarget
    exact hasWords_mono (hread.memberFrom hphrases.shortens hloop) (by omega)

theorem refusesInWords_operand (levels : Nat) : RefusesInWords levels (operand levels) := by
  induction levels with
  | zero =>
    intro tokens error h
    cases h
    exact ⟨trivial, fun _ ↦ Nat.zero_le _⟩
  | succ levels ih =>
    intro tokens error h
    have hphrases := readsPhrases_operand levels
    unfold operand at h
    split at h
    · rename_i op after haccept
      obtain ⟨s, position, rfl, -⟩ := accept?_eq_some_iff.mp haccept
      rcases bind_eq_error_iff.mp h with hinner | ⟨inner, -, hresult⟩
      · exact hasWords_mono (ih hinner) Nat.succ_le_succ
      · cases hresult
    · exact (ih.expression hphrases).member hphrases.expression h

/-! ## The parser as a whole -/

variable {body : List Token} {position levels : Nat}

/-- A phrase is parsed if there are levels enough, and is too deep otherwise. -/
theorem parseWithin_of_phrase {n : Nat} {e : Expr} (position : Nat)
    (h : Phrase (.chain .or) n (body.map Token.kind) e) :
    parseWithin levels (body ++ [⟨.stop, position⟩]) =
      if n ≤ levels then .ok e else .error .tooDeep := by
  have hread : expression (operand levels) (body ++ [⟨.stop, position⟩]) =
      if n ≤ levels then .ok (e, [⟨.stop, position⟩]) else .error .tooDeep :=
    (completes h).chain_eq .or rfl PhraseKind.endsBefore_stop
  unfold parseWithin
  rw [hread]
  by_cases hn : n ≤ levels
  · rw [if_pos hn, if_pos hn, ok_bind]
    rfl
  · rw [if_neg hn, if_neg hn, error_bind]

/-- What is parsed is a phrase that takes all the tokens in front of the closing one. -/
theorem phrase_of_parseWithin {e : Expr} (hstop : TokenKind.stop ∉ body.map Token.kind)
    (h : parseWithin levels (body ++ [⟨.stop, position⟩]) = .ok e) :
    ∃ n ≤ levels, Phrase (.chain .or) n (body.map Token.kind) e := by
  obtain ⟨⟨tree, rest⟩, hread, hresult⟩ := bind_eq_ok_iff.mp h
  obtain ⟨n, ts, hn, hbody, hphrase⟩ := (readsPhrases_operand levels).expression hread
  -- the phrase ends where the body ends: it holds no closing token, and only that may follow it
  have hend : rest = [⟨.stop, position⟩] ∧ body = ts := by
    have hphraseStop := hphrase.stop_notMem
    rcases List.append_eq_append_iff.mp hbody with ⟨between, hts, hrest⟩ | ⟨between, hts, hrest⟩
    · cases between with
      | nil => simp_all
      | cons token between => grind
    · cases between with
      | nil => simp_all
      | cons token between =>
        obtain ⟨kind, place⟩ := token
        have hkind : kind ≠ .stop := by
          rintro rfl
          simp [hts] at hstop
        rw [hrest, List.cons_append] at hresult
        dsimp only at hresult
        split at hresult
        · rename_i heq
          cases heq
          exact absurd rfl hkind
        · rename_i heq
          cases heq
        · cases hresult
  obtain ⟨rfl, rfl⟩ := hend
  cases hresult
  exact ⟨n, hn, hphrase⟩

/-- A refusal is in words, or complains of an integer with too many digits behind an expression. -/
theorem parseWithin_eq_error {error : ConditionError}
    (h : parseWithin levels (body ++ [⟨.stop, position⟩]) = .error error) :
    (error = .tooDeep → levels ≤ body.length + 1) ∧
      (error.HasWords ∨ ∃ (n : Int) (place : Nat),
        error = .unexpectedToken ⟨.number (some (.int n)), place⟩ ∧
          decimalDigitLimit < (Nat.toDigits 10 n.natAbs).length) := by
  rcases bind_eq_error_iff.mp h with hread | ⟨⟨tree, rest⟩, -, hresult⟩
  · obtain ⟨hwords, hdeep⟩ :=
      (refusesInWords_operand levels).expression (readsPhrases_operand levels) hread
    refine ⟨fun heq ↦ ?_, .inl hwords⟩
    simpa using hdeep heq
  · dsimp only at hresult
    split at hresult
    · cases hresult
    · cases hresult
    · rename_i token tail _
      cases hresult
      refine ⟨by simp, ?_⟩
      rcases token.kind.exists_shown_or with hshown | ⟨n, hkind, hlong⟩
      · exact .inl hshown
      · exact .inr ⟨n, token.position, by rw [← hkind], hlong⟩

/-- The grammar is unambiguous. -/
theorem phrase_unique {ts : List TokenKind} {m n : Nat} {e e' : Expr}
    (h : Phrase (.chain .or) m ts e) (h' : Phrase (.chain .or) n ts e') : m = n ∧ e = e' := by
  obtain ⟨tokens, rfl⟩ : ∃ tokens : List Token, tokens.map Token.kind = ts :=
    ⟨ts.map (Token.mk · 0), by rw [List.map_map]; exact List.map_id ts⟩
  -- with the levels of one phrase the other is read as well, and by the same function
  have hparse (levels : Nat) : (if m ≤ levels then .ok e else .error .tooDeep) =
      (if n ≤ levels then .ok e' else .error .tooDeep : Except ConditionError Expr) :=
    (parseWithin_of_phrase 0 h).symm.trans (parseWithin_of_phrase 0 h')
  have hm := hparse m
  have hn := hparse n
  grind

/-- **The parser recognizes the grammar.** The tokens of a text are a body and the closing token.
With any number of levels, the trees that the parser gives are those of the phrases of the body with
no more levels of nesting, and the body has one tree at most. A body without a tree is refused: in
words, unless the parser complains of an integer with too many digits to be written, and as too deep
only if there are no more levels than tokens. -/
theorem parseWithin_eq_ok_iff {source : Text} {tokens : List Token}
    (h : Lexer.tokens source = .ok tokens) :
    ∃ body, tokens = body ++ [⟨.stop, source.length⟩] ∧
      (∀ levels e, parseWithin levels tokens = .ok e ↔
        ∃ n ≤ levels, Phrase (.chain .or) n (body.map Token.kind) e) ∧
      (∀ m n e e', Phrase (.chain .or) m (body.map Token.kind) e →
        Phrase (.chain .or) n (body.map Token.kind) e' → m = n ∧ e = e') ∧
      ((∀ n e, ¬Phrase (.chain .or) n (body.map Token.kind) e) →
        ∀ levels, ∃ error, parseWithin levels tokens = .error error ∧
          (error = .tooDeep → levels ≤ tokens.length) ∧
          (error.HasWords ∨ ∃ (n : Int) (place : Nat),
            error = .unexpectedToken ⟨.number (some (.int n)), place⟩ ∧
              decimalDigitLimit < (Nat.toDigits 10 n.natAbs).length)) := by
  obtain ⟨body, rfl, hstop⟩ := Lexer.exists_of_tokens h
  have hiff (levels : Nat) (e : Expr) :
      parseWithin levels (body ++ [⟨.stop, source.length⟩]) = .ok e ↔
        ∃ n ≤ levels, Phrase (.chain .or) n (body.map Token.kind) e := by
    constructor
    · exact phrase_of_parseWithin hstop
    · rintro ⟨n, hn, hphrase⟩
      rw [parseWithin_of_phrase source.length hphrase, if_pos hn]
  refine ⟨body, rfl, hiff, fun m n e e' ↦ phrase_unique, fun hnone levels ↦ ?_⟩
  cases hparse : parseWithin levels (body ++ [⟨.stop, source.length⟩]) with
  | ok e =>
    obtain ⟨n, -, hphrase⟩ := (hiff levels e).mp hparse
    exact absurd hphrase (hnone n e)
  | error error =>
    obtain ⟨hdeep, hwords⟩ := parseWithin_eq_error hparse
    exact ⟨error, rfl, by simpa using hdeep, hwords⟩

/-- The only tree of a difference of two numbers. -/
theorem parseWithin_eq_ok_iff_difference :
    Lexer.tokens "1-2" = .ok [⟨.number (some (.int 1)), 0⟩, ⟨.symbol .minus, 1⟩,
      ⟨.number (some (.int 2)), 2⟩, ⟨.stop, 3⟩] ∧
    ∀ n e, Phrase (.chain .or) n
      [.number (some (.int 1)), .symbol .minus, .number (some (.int 2))] e →
        e = .binary (.arithmetic .subtract) (.literal (.number (.int 1)))
          (.literal (.number (.int 2))) := by
  have htokens : Lexer.tokens "1-2" = .ok [⟨.number (some (.int 1)), 0⟩, ⟨.symbol .minus, 1⟩,
      ⟨.number (some (.int 2)), 2⟩, ⟨.stop, 3⟩] := rfl
  obtain ⟨body, hbody, hiff, hunique, -⟩ := parseWithin_eq_ok_iff htokens
  obtain rfl : body = [⟨.number (some (.int 1)), 0⟩, ⟨.symbol .minus, 1⟩,
      ⟨.number (some (.int 2)), 2⟩] := (List.append_cancel_right hbody).symm
  obtain ⟨m, -, hphrase⟩ := (hiff 1 _).mp rfl
  exact ⟨htokens, fun n e h ↦ (hunique n m e _ h hphrase).2⟩

/-- A one and a power of sixteen in hexadecimal: two numbers, however long the second one is. -/
theorem exists_tokens_one_hex (zeros : Nat) :
    ∃ first second last,
      Lexer.tokens (Text.ofString "1 0x1" ++ List.replicate zeros 0x30) =
        .ok [⟨.number (some (.int 1)), first⟩, ⟨.number (some (.int (16 ^ zeros))), second⟩,
          ⟨.stop, last⟩] := by
  have hhex : ∀ c ∈ 0x31 :: List.replicate zeros 0x30, Lexer.isHexDigit c = true := by
    intro c hc
    rcases List.mem_cons.mp hc with rfl | hc
    · decide
    · rw [List.eq_of_mem_replicate hc]
      decide
  have hvalue : Number.ofText? (0x30 :: 0x78 :: 0x31 :: List.replicate zeros 0x30)
      = some (.int (16 ^ zeros)) := by
    have hmark : Numeral.dropMark 16 (0x31 :: List.replicate zeros 0x30)
        = 0x31 :: List.replicate zeros 0x30 :=
      Numeral.dropMark_of_ne fun z hz ↦ by cases hz; decide
    rw [Number.ofText?_hex (List.cons_ne_nil _ _) hhex, hmark, Numeral.valueInBase?_one_zeros,
      Option.map_some, Int.natCast_pow]
    rfl
  have hnumeral := Lexer.scans_nil.lexeme (List.cons_ne_nil _ _)
    (Lexer.lexeme?_hex (List.cons_ne_nil _ _) hhex (by simp))
  have hblank := hnumeral.lexeme (w := [0x20]) (List.cons_ne_nil _ _)
    (Lexer.lexeme?_blank (List.cons_ne_nil _ _) (by decide) (fun c hc ↦ by cases hc; decide))
  have hscans := hblank.lexeme (w := [0x31]) (List.cons_ne_nil _ _)
    (Lexer.lexeme?_digits (List.cons_ne_nil _ _) (by decide) (fun c hc ↦ by cases hc; decide))
  obtain ⟨body, htokens, hkinds⟩ := hscans.exists_tokens
  obtain ⟨first, tail, rfl, htail⟩ := map_kind_eq_cons_iff.mp hkinds
  obtain ⟨second, rfl⟩ := map_kind_eq_singleton_iff.mp htail
  rw [hvalue, List.append_nil] at htokens
  exact ⟨first, second, _, htokens⟩

theorem not_hasWords_pow {k zeros place : Nat} (hk : decimalDigitLimit ≤ 43 * k)
    (hzeros : 40 * k ≤ zeros) :
    ¬ConditionError.HasWords (.unexpectedToken ⟨.number (some (.int (16 ^ zeros))), place⟩) := by
  -- small powers are compared by computation, and large ones are powers of these
  have hlong : ¬(Nat.toDigits 10 (16 ^ zeros : Int).natAbs).length ≤ decimalDigitLimit := by
    rw [Int.natAbs_pow, Nat.length_toDigits_le_iff (by decide) (by decide), Nat.not_lt]
    calc 10 ^ decimalDigitLimit ≤ 10 ^ (43 * k) := Nat.pow_le_pow_right (by decide) hk
      _ = (10 ^ 43) ^ k := Nat.pow_mul 10 43 k
      _ ≤ (16 ^ 40) ^ k := Nat.pow_le_pow_left (by decide) k
      _ = 16 ^ (40 * k) := (Nat.pow_mul 16 40 k).symm
      _ ≤ 16 ^ zeros := Nat.pow_le_pow_right (by decide) hzeros
  rintro ⟨shown, hshown⟩
  rw [TokenKind.shown, Number.write, integerText, if_neg hlong] at hshown
  cases hshown

/-- A hexadecimal numeral behind an expression is refused without words if it is long enough. -/
theorem parse_overlong_integer :
    letI : Stack := .usual
    ∃ tokens place,
      Lexer.tokens (Text.ofString "1 0x1" ++ List.replicate 4000 0x30) = .ok tokens ∧
      parse tokens = .error (.unexpectedToken ⟨.number (some (.int (16 ^ 4000))), place⟩) ∧
      ¬ConditionError.HasWords (.unexpectedToken ⟨.number (some (.int (16 ^ 4000))), place⟩) := by
  let stack : Stack := .usual
  obtain ⟨first, second, last, htokens⟩ := exists_tokens_one_hex 4000
  have hparse (x : Number) :
      parse [⟨.number (some (.int 1)), first⟩, ⟨.number (some x), second⟩, ⟨.stop, last⟩] =
        .error (.unexpectedToken ⟨.number (some x), second⟩) := rfl
  exact ⟨_, second, htokens, hparse (.int (16 ^ 4000)),
    not_hasWords_pow (k := 100) (by decide) (by decide)⟩

end Parser

end MockApi
