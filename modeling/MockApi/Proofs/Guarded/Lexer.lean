import MockApi.Proofs.Condition.Lexemes
import MockApi.Proofs.Guarded.Fault

/-!
# Scanning with guards

The tokens of a condition are the same when every index into a quoted body is guarded and every loop
has a bound of its own. An index behind a backslash is in range because of how a quoted body ends:
the scanner has taken every backslash in it along with the code point after it, and unescaping keeps
to these pairs.
-/

namespace MockApi.Guarded

open Lexer (shortEscape? numberedEscape? lexeme? splitQuotedBody?)

/-! ## Scanning -/

/-- The number of digits of a numbered escape. -/
def escapeWidth (letter : Nat) : Nat := if letter = 'u'.toNat then 4 else 2

/-- The text that a quoted body writes from an index on, in fewer than `steps` steps. -/
def unescapeFrom (raw : Text) : Nat → Nat → Run ConditionError Text
  | 0, _ => .error (.fault .endless)
  | steps + 1, i =>
    if i < raw.length then do
      let c ← itemAt raw .noCodePoint i
      if c ≠ Text.backslash then return c :: (← unescapeFrom raw steps (i + 1))
      let letter ← itemAt raw .noCodePoint (i + 1)
      match shortEscape? letter with
      | some c => return c :: (← unescapeFrom raw steps (i + 2))
      | none =>
        let width := escapeWidth letter
        match numberedEscape? letter ((raw.drop (i + 2)).take width) with
        | some c => return c :: (← unescapeFrom raw steps (i + 2 + width))
        | none => return letter :: (← unescapeFrom raw steps (i + 2))
    else return []

/-- The text that a quoted body writes. -/
def unescape (raw : Text) : Run ConditionError Text := unescapeFrom raw (raw.length + 1) 0

/-- What a lexeme stands for, with the text between its marks unescaped. -/
def kindOf (lexeme : Text) : TokenKind → Run ConditionError TokenKind
  | .text _ => do return .text (← unescape lexeme.tail.dropLast)
  | kind => return kind

/-- The tokens of a text at a place, in at most `steps` lexemes. -/
def tokensWithin : Nat → Nat → Text → Run ConditionError (List Token)
  | _, position, [] => return [⟨.stop, position⟩]
  | 0, _, _ :: _ => .error (.fault .endless)
  | steps + 1, position, c :: rest =>
    match lexeme? (c :: rest) with
    | none => .error (.declared (.unexpectedCharacter c position))
    | some ⟨none, length, left⟩ => tokensWithin steps (position + length) left
    | some ⟨some kind, length, left⟩ => do
      let kind ← kindOf ((c :: rest).take length) kind
      return ⟨kind, position⟩ :: (← tokensWithin steps (position + length) left)

/-- The tokens of a condition. -/
def tokens (source : Text) : Run ConditionError (List Token) :=
  tokensWithin source.length 0 source

/-! ## Pairs of a backslash and what it takes along -/

/-- In a text every backslash has a code point after it that it takes along. -/
inductive Paired : Text → Prop
  /-- There is none in the empty text. -/
  | nil : Paired []
  /-- A backslash and what it takes along stand in front. -/
  | escape {t : Text} (c : Nat) (h : Paired t) : Paired (Text.backslash :: c :: t)
  /-- Another code point stands in front. -/
  | plain {c : Nat} {t : Text} (hc : c ≠ Text.backslash) (h : Paired t) : Paired (c :: t)

theorem paired_of_splitQuotedBody? {mark : Nat} {t body left : Text}
    (h : splitQuotedBody? mark t = some (body, left)) : Paired body := by
  fun_induction splitQuotedBody? mark t generalizing body left with
  | case1 | case3 | case4 | case5 => cases h
  | case2 t =>
    cases h
    exact .nil
  | case6 e t hfeed hmark hbackslash ih =>
    obtain ⟨⟨body, left⟩, hbody, heq⟩ := Option.map_eq_some_iff.mp h
    cases heq
    exact .escape e (ih hbody)
  | case7 c t hmark hfeed hbackslash ih =>
    obtain ⟨⟨body, left⟩, hbody, heq⟩ := Option.map_eq_some_iff.mp h
    cases heq
    exact .plain hbackslash (ih hbody)

theorem Paired.tail {c : Nat} {t : Text} (h : Paired (c :: t)) (hc : c ≠ Text.backslash) :
    Paired t := by
  cases h with
  | escape c h => exact absurd rfl hc
  | plain _ h => exact h

/-- A backslash is not the last code point. -/
theorem Paired.exists_of_backslash {t : Text} (h : Paired (Text.backslash :: t)) :
    ∃ c rest, t = c :: rest ∧ Paired rest := by
  cases h with
  | escape c h => exact ⟨c, _, rfl, h⟩
  | plain hc _ => exact absurd rfl hc

/-- Code points other than backslashes can be taken off. -/
theorem Paired.drop {t : Text} (h : Paired t) (n : Nat)
    (hn : ∀ c ∈ t.take n, c ≠ Text.backslash) : Paired (t.drop n) := by
  induction n generalizing t with
  | zero => exact h
  | succ n ih =>
    rcases t with _ | ⟨c, t⟩
    · exact h
    · obtain ⟨hc, ht⟩ := List.forall_mem_cons.mp hn
      exact ih (h.tail hc) ht

/-! ## Unescaping -/

theorem isSome_hexDigit?_of_hexValue? {digits : Text} {n : Nat}
    (h : Text.hexValue? digits = some n) : ∀ d ∈ digits, (Text.hexDigit? d).isSome = true := by
  have hfold (start : Option Nat) (hsome : (digits.foldl (fun acc c ↦ acc.bind fun n ↦
      (Text.hexDigit? c).map fun d ↦ 16 * n + d) start).isSome = true) :
      start.isSome = true ∧ ∀ d ∈ digits, (Text.hexDigit? d).isSome = true := by
    clear h
    induction digits generalizing start with
    | nil => exact ⟨hsome, by simp⟩
    | cons d digits ih =>
      obtain ⟨hfirst, hrest⟩ := ih _ hsome
      rcases start with _ | start
      · cases hfirst
      · have hd : (Text.hexDigit? d).isSome = true := by simpa using hfirst
        exact ⟨rfl, List.forall_mem_cons.mpr ⟨hd, hrest⟩⟩
  exact (hfold (some 0) (by rw [← Text.hexValue?, h]; rfl)).2

theorem ne_backslash_of_numberedEscape? {letter c : Nat} {digits : Text}
    (h : numberedEscape? letter digits = some c) : ∀ d ∈ digits, d ≠ Text.backslash := by
  rintro d hd rfl
  obtain ⟨-, hvalue⟩ := Option.ite_none_right_eq_some.mp h
  exact absurd (isSome_hexDigit?_of_hexValue? hvalue _ hd) (by decide)

theorem length_of_numberedEscape? {letter c : Nat} {digits : Text}
    (h : numberedEscape? letter digits = some c) : digits.length = escapeWidth letter := by
  rcases (Option.ite_none_right_eq_some.mp h).1 with ⟨rfl, hlength⟩ | ⟨rfl, hlength⟩ <;>
    exact hlength

/-- An escape is a short one, a numbered one with as many digits as its letter asks for, or one of
no meaning. -/
theorem unescape_backslash (letter : Nat) (t : Text) :
    Lexer.unescape (Text.backslash :: letter :: t) = match shortEscape? letter with
      | some c => c :: Lexer.unescape t
      | none => match numberedEscape? letter (t.take (escapeWidth letter)) with
        | some c => c :: Lexer.unescape (t.drop (escapeWidth letter))
        | none => letter :: Lexer.unescape t := by
  cases hshort : shortEscape? letter with
  | some c => exact Lexer.unescape_short hshort t
  | none =>
    by_cases hletter : letter = 'u'.toNat ∨ letter = 'x'.toNat
    · rw [Lexer.unescape.eq_def]
      simp only [hshort]
      rcases hletter with rfl | rfl
      · rcases t with _ | ⟨a, _ | ⟨b, _ | ⟨d, _ | ⟨e, t⟩⟩⟩⟩ <;> rfl
      · rcases t with _ | ⟨a, _ | ⟨b, t⟩⟩
        · rfl
        · rfl
        · -- four digits are no escape of two
          change (match numberedEscape? 'x'.toNat [a, b] with | some c => _ | none => _) =
            match numberedEscape? 'x'.toNat [a, b] with | some c => _ | none => _
          rcases numberedEscape? 'x'.toNat [a, b] with _ | c
          · rcases t with _ | ⟨d, _ | ⟨e, t⟩⟩ <;> rfl
          · rfl
    · rw [not_or] at hletter
      have hnone : numberedEscape? letter (t.take (escapeWidth letter)) = none := by
        refine if_neg ?_
        rintro (⟨hu, -⟩ | ⟨hx, -⟩)
        · exact hletter.1 hu
        · exact hletter.2 hx
      rw [Lexer.unescape_other hshort hletter.2 hletter.1, hnone]

theorem unescapeFrom_eq {raw : Text} {steps i : Nat} (hpaired : Paired (raw.drop i))
    (hi : i ≤ raw.length) (hsteps : raw.length < i + steps) :
    unescapeFrom raw steps i = .ok (Lexer.unescape (raw.drop i)) := by
  induction steps generalizing i with
  | zero => omega
  | succ steps ih =>
    rw [unescapeFrom]
    cases hdrop : raw.drop i with
    | nil =>
      rw [if_neg (Nat.not_lt.mpr (List.drop_eq_nil_iff.mp hdrop))]
      rfl
    | cons c t =>
      have hlt := lt_length_of_drop hdrop
      have ht := drop_succ_of_drop hdrop
      rw [hdrop] at hpaired
      rw [if_pos hlt, itemAt_of_drop hdrop, ok_bind]
      by_cases hbackslash : c = Text.backslash
      · -- the code point that the backslash takes along is there
        subst hbackslash
        obtain ⟨letter, rest, rfl, htail⟩ := hpaired.exists_of_backslash
        have hlt' := lt_length_of_drop ht
        have hrest : raw.drop (i + 2) = rest := drop_succ_of_drop ht
        simp only [ne_eq, not_true_eq_false, if_false, itemAt_of_drop ht, ok_bind, hrest]
        rw [unescape_backslash]
        subst hrest
        have hnext := ih htail hlt' (by omega)
        cases hshort : shortEscape? letter with
        | some c =>
          simp only [hnext]
          rfl
        | none =>
          cases hnumbered : numberedEscape? letter
              ((raw.drop (i + 2)).take (escapeWidth letter)) with
          | some c =>
            have hwidth := length_of_numberedEscape? hnumbered
            have hdigits := htail.drop _ (ne_backslash_of_numberedEscape? hnumbered)
            rw [List.length_take, List.length_drop] at hwidth
            rw [List.drop_drop] at hdigits
            have hafter := ih hdigits (by omega) (by omega)
            simp only [hafter, List.drop_drop]
            rfl
          | none =>
            simp only [hnext]
            rfl
      · have hnext := ih (ht ▸ hpaired.tail hbackslash) hlt (by omega)
        rw [if_pos hbackslash, hnext, ht, Lexer.unescape_of_ne hbackslash]
        rfl

/-- A body in which every backslash takes a code point along is unescaped without a fault. -/
theorem unescape_eq {raw : Text} (h : Paired raw) : unescape raw = .ok (Lexer.unescape raw) :=
  unescapeFrom_eq (i := 0) h (Nat.zero_le _) (by omega)

/-! ## Tokens -/

/-- The text between the marks of a quoted lexeme is unescaped to the text of its token. -/
theorem kindOf_eq {w left : Text} {kind : TokenKind}
    (h : lexeme? (w ++ left) = some ⟨some kind, w.length, left⟩) : kindOf w kind = .ok kind := by
  match kind with
  | .text u =>
    obtain ⟨mark, body, -, rfl, hkind, hsplit⟩ := Lexer.exists_of_quoted? (Lexer.quoted?_of_text h)
    obtain rfl := TokenKind.text.inj hkind
    have hbody : (mark :: (body ++ [mark])).tail.dropLast = body := by
      rw [List.tail_cons, List.dropLast_concat]
    rw [kindOf, hbody, unescape_eq (paired_of_splitQuotedBody? (hsplit []))]
    rfl
  | .number _ | .ident _ | .symbol _ | .stop => rfl

theorem tokensWithin_eq {steps : Nat} {t : Text} (hsteps : t.length ≤ steps) (position : Nat) :
    tokensWithin steps position t = declare (Lexer.tokensWithin steps position t) := by
  induction steps generalizing t position with
  | zero =>
    obtain rfl := List.length_eq_zero_iff.mp (Nat.le_zero.mp hsteps)
    rfl
  | succ steps ih =>
    rcases t with _ | ⟨c, rest⟩
    · rfl
    · rw [tokensWithin, Lexer.tokensWithin]
      cases hlexeme : lexeme? (c :: rest) with
      | none => rfl
      | some l =>
        obtain ⟨token?, n, left⟩ := l
        obtain ⟨w, (htext : c :: rest = w ++ left), (rfl : w.length = n), hne⟩ :=
          Lexer.exists_eq_append_of_lexeme? hlexeme
        have hleft : left.length ≤ steps := by
          have hpos := List.length_pos_of_ne_nil hne
          rw [htext, List.length_append] at hsteps
          omega
        have htail := ih hleft (position + w.length)
        rw [htext] at hlexeme ⊢
        rcases token? with _ | kind
        · dsimp only
          rw [htail]
          rcases Lexer.tokensWithin steps (position + w.length) left with _ | tokens <;> rfl
        · have htake : (w ++ left).take w.length = w := List.take_left
          dsimp only
          rw [htake, kindOf_eq hlexeme, ok_bind, htail]
          rcases Lexer.tokensWithin steps (position + w.length) left with _ | tokens <;> rfl

/-- **Scanning comes to no fault.** The tokens of a condition are the same with guards. -/
theorem tokens_eq (source : Text) : tokens source = declare (Lexer.tokens source) :=
  tokensWithin_eq (Nat.le_refl _) 0

end MockApi.Guarded
