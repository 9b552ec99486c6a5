import MockApi.Proofs.Condition.Lexemes

/-!
# White space between tokens

A condition is made of lexemes with white space between them, and only the lexemes count: with other
white space between them they are scanned into the same tokens, at other places, and the condition
has the same tree or none. White space may be put anywhere between two lexemes, but where two of
them stand side by side it cannot be taken away in general.
-/

namespace MockApi

variable {stack : Stack}

namespace Lexer

/-! ## Lexemes and the white space around them -/

/-- The lexemes of a text that stand for tokens, of at most `steps` lexemes. -/
def lexemesWithin : Nat → Text → List Text
  | 0, _ => []
  | steps + 1, t =>
    match lexeme? t with
    | none => []
    | some ⟨none, _, left⟩ => lexemesWithin steps left
    | some ⟨some _, length, left⟩ => t.take length :: lexemesWithin steps left

/-- The lexemes of a condition that stand for tokens. -/
def lexemes (source : Text) : List Text := lexemesWithin source.length source

/-- The text of some words with white space in front and a gap behind each of them. -/
def layout (front : Text) (words gaps : List Text) : Text :=
  front ++ (List.zipWith (· ++ ·) words gaps).flatten

/-- The places where words start, and where the text ends after them. -/
def offsets : Nat → List Text → List Text → List Nat
  | position, w :: words, gap :: gaps =>
    position :: offsets (position + w.length + gap.length) words gaps
  | position, _, _ => [position]

/-- A text is made of white space and of words in turn, and its tokens stand where the words do, the
last one at the end of the text. -/
structure Tiles (source : Text) (tokens : List Token) (front : Text) (words gaps : List Text) :
    Prop where
  /-- Between the words there is white space only. -/
  isBlank : ∀ gap ∈ front :: gaps, ∀ c ∈ gap, Text.isBlank c = true
  /-- There is a gap behind every word. -/
  length_gaps : gaps.length = words.length
  /-- Words and white space make up the text. -/
  eq_layout : source = layout front words gaps
  /-- The tokens are where the words are. -/
  positions : tokens.map Token.position = offsets front.length words gaps
  /-- Every token is behind the ones before it. -/
  increasing : (tokens.map Token.position).Pairwise (· < ·)

variable {position : Nat} {t w front : Text} {words gaps : List Text} {tokens : List Token}
  {kinds : List TokenKind}

@[simp] theorem layout_nil : layout front [] gaps = front := by
  simp [layout]

theorem layout_append (gap : Text) :
    layout (gap ++ front) words gaps = gap ++ layout front words gaps :=
  List.append_assoc ..

theorem layout_cons (gap : Text) :
    layout front (w :: words) (gap :: gaps) = front ++ (w ++ layout gap words gaps) := by
  simp [layout]

/-- A text that is a single lexeme, which stands for a token. -/
def IsLexeme (w : Text) (kind : TokenKind) : Prop := lexeme? w = some ⟨some kind, w.length, []⟩

/-! ## Scanning as a relation -/

/-- Scanning a text from a place on takes some words off it that stand for tokens. -/
inductive Reads : Nat → Text → List Text → List Token → Prop
  /-- At the end there is the closing token. -/
  | stop (position : Nat) : Reads position [] [] [⟨.stop, position⟩]
  /-- White space is skipped. -/
  | blank {position : Nat} {gap t : Text} {words : List Text} {tokens : List Token}
    (h : lexeme? (gap ++ t) = some ⟨none, gap.length, t⟩)
    (htail : Reads (position + gap.length) t words tokens) : Reads position (gap ++ t) words tokens
  /-- Another lexeme stands for a token. -/
  | token {position : Nat} {w t : Text} {kind : TokenKind} {words : List Text} {tokens : List Token}
    (h : lexeme? (w ++ t) = some ⟨some kind, w.length, t⟩)
    (htail : Reads (position + w.length) t words tokens) :
    Reads position (w ++ t) (w :: words) (⟨kind, position⟩ :: tokens)

theorem reads_of_tokensWithin {steps : Nat} (hsteps : t.length ≤ steps)
    (h : tokensWithin steps position t = .ok tokens) :
    Reads position t (lexemesWithin steps t) tokens := by
  induction steps generalizing position t tokens with
  | zero =>
    obtain rfl := List.length_eq_zero_iff.mp (Nat.le_zero.mp hsteps)
    cases h
    exact .stop position
  | succ steps ih =>
    rcases t with _ | ⟨c, rest⟩
    · cases h
      exact .stop position
    · rw [tokensWithin] at h
      cases hlexeme : lexeme? (c :: rest) with
      | none => simp [hlexeme] at h
      | some l =>
        obtain ⟨token?, n, left⟩ := l
        obtain ⟨w, (htext : c :: rest = w ++ left), (rfl : w.length = n), hne⟩ :=
          exists_eq_append_of_lexeme? hlexeme
        rw [hlexeme] at h
        obtain ⟨inner, hinner, h⟩ := bind_eq_ok_iff.mp h
        have hleft : left.length ≤ steps := by
          have hpos := List.length_pos_of_ne_nil hne
          rw [htext, List.length_append] at hsteps
          omega
        have hreads := ih hleft hinner
        rw [lexemesWithin, hlexeme]
        rw [htext] at hlexeme ⊢
        rcases token? with _ | kind
        · cases h
          exact .blank hlexeme hreads
        · cases h
          have htake : (w ++ left).take w.length = w := List.take_left
          simp only [htake]
          exact .token hlexeme hreads

theorem Reads.tokensWithin (h : Reads position t words tokens) {steps : Nat}
    (hsteps : t.length ≤ steps) : Lexer.tokensWithin steps position t = .ok tokens := by
  have hlexeme {position steps : Nat} {w t : Text} {token? : Option TokenKind} {inner : List Token}
      (hlexeme : lexeme? (w ++ t) = some ⟨token?, w.length, t⟩) (hsteps : (w ++ t).length ≤ steps)
      (ih : ∀ {steps}, t.length ≤ steps →
        Lexer.tokensWithin steps (position + w.length) t = .ok inner) :
      Lexer.tokensWithin steps position (w ++ t) =
        .ok ((token?.toList.map fun kind ↦ ⟨kind, position⟩) ++ inner) := by
    have hne := ne_nil_of_lexeme? hlexeme
    have hpos := List.length_pos_of_ne_nil hne
    rw [List.length_append] at hsteps
    obtain ⟨k, rfl⟩ : ∃ k, steps = k + 1 := Nat.exists_eq_succ_of_ne_zero (by omega)
    rw [tokensWithin_lexeme hne hlexeme, ih (by omega)]
    rfl
  induction h generalizing steps with
  | stop position => cases steps <;> rfl
  | blank h htail ih => exact hlexeme h hsteps ih
  | token h htail ih => exact hlexeme h hsteps ih

/-- The tokens of a text, with the lexemes that it is scanned into. -/
theorem tokens_eq_ok_iff : Lexer.tokens t = .ok tokens ↔ Reads 0 t (lexemes t) tokens :=
  ⟨reads_of_tokensWithin (Nat.le_refl _), fun h ↦ h.tokensWithin (Nat.le_refl _)⟩

/-! ## Tiling -/

/-- What is read is made of white space and of the words in turn, and every word is a lexeme by
itself. -/
theorem Reads.exists_layout (h : Reads position t words tokens) :
    ∃ front gaps kinds, (∀ gap ∈ front :: gaps, ∀ c ∈ gap, Text.isBlank c = true) ∧
      gaps.length = words.length ∧ t = layout front words gaps ∧
      tokens.map Token.position = offsets (position + front.length) words gaps ∧
      tokens.map Token.kind = kinds ++ [.stop] ∧ List.Forall₂ IsLexeme words kinds := by
  induction h with
  | stop position => exact ⟨[], [], [], by simp, rfl, rfl, rfl, rfl, .nil⟩
  | @blank position gap t words tokens hlexeme htail ih =>
    obtain ⟨front, gaps, kinds, hblank, hlength, rfl, hpositions, hkinds, hwords⟩ := ih
    refine ⟨gap ++ front, gaps, kinds, ?_, hlength, (layout_append gap).symm, ?_, hkinds, hwords⟩
    · rw [List.forall_mem_cons] at hblank ⊢
      refine ⟨fun c hc ↦ ?_, hblank.2⟩
      rcases List.mem_append.mp hc with hc | hc
      · exact isBlank_of_lexeme? hlexeme c hc
      · exact hblank.1 c hc
    · rw [hpositions, List.length_append, Nat.add_assoc]
  | @token position w t kind words tokens hlexeme htail ih =>
    -- the white space behind the word is its gap
    obtain ⟨front, gaps, kinds, hblank, hlength, rfl, hpositions, hkinds, hwords⟩ := ih
    refine ⟨[], front :: gaps, kind :: kinds, ?_, congrArg (· + 1) hlength, ?_, ?_, ?_, ?_⟩
    · exact List.forall_mem_cons.mpr ⟨by simp, hblank⟩
    · rw [layout_cons, List.nil_append]
    · rw [List.map_cons, hpositions]
      rfl
    · rw [List.map_cons, hkinds]
      rfl
    · have halone : lexeme? (w ++ []) = some ⟨some kind, w.length, []⟩ :=
        lexeme?_of_stop hlexeme (by simp)
      rw [List.append_nil] at halone
      exact .cons halone hwords

/-- White space in front of something else is skipped. -/
theorem Reads.skip (hfront : ∀ c ∈ front, Text.isBlank c = true)
    (hstart : ∀ c ∈ t.head?, Text.isBlank c = false)
    (h : Reads (position + front.length) t words tokens) :
    Reads position (front ++ t) words tokens := by
  by_cases hne : front = []
  · subst hne
    exact h
  · exact .blank (lexeme?_blank hne hfront hstart) h

/-- What follows a word in a layout is nothing or starts with white space, if the gap behind the
word is empty only at the end. -/
theorem isBlank_head?_layout (hblank : ∀ c ∈ front, Text.isBlank c = true)
    (hlength : gaps.length = words.length) (hbetween : gaps = [] ∨ front ≠ []) :
    ∀ c ∈ (layout front words gaps).head?, Text.isBlank c = true := by
  intro c hc
  rcases front with _ | ⟨b, front⟩
  · obtain rfl := hbetween.resolve_right (absurd rfl)
    obtain rfl := List.length_eq_zero_iff.mp hlength.symm
    cases hc
  · obtain rfl : b = c := Option.some.inj hc
    exact hblank b List.mem_cons_self

/-- Words that are lexemes by themselves are read with any white space around them, if some of it
stands between each of them and the next. -/
theorem reads_layout (hwords : List.Forall₂ IsLexeme words kinds)
    (hlength : gaps.length = words.length)
    (hblank : ∀ gap ∈ front :: gaps, ∀ c ∈ gap, Text.isBlank c = true)
    (hbetween : ∀ gap ∈ gaps.dropLast, gap ≠ []) :
    ∀ position, ∃ tokens, Reads position (layout front words gaps) words tokens ∧
      tokens.map Token.position = offsets (position + front.length) words gaps ∧
      tokens.map Token.kind = kinds ++ [.stop] := by
  induction hwords generalizing front gaps with
  | nil =>
    intro position
    refine ⟨[⟨.stop, position + front.length⟩], ?_, by cases gaps <;> rfl, rfl⟩
    have hstop : Reads position (front ++ []) [] [⟨.stop, position + front.length⟩] :=
      .skip (hblank front List.mem_cons_self) (by simp) (.stop _)
    simpa using hstop
  | @cons w kind words kinds hw hwords ih =>
    intro position
    rcases gaps with _ | ⟨gap, gaps⟩
    · cases hlength
    obtain ⟨hfront, hgaps⟩ := List.forall_mem_cons.mp hblank
    have hlength' : gaps.length = words.length := Nat.succ.inj hlength
    have hbetween' : (gaps = [] ∨ gap ≠ []) ∧ ∀ gap ∈ gaps.dropLast, gap ≠ [] := by
      rcases eq_or_ne gaps [] with rfl | hne
      · exact ⟨.inl rfl, by simp⟩
      · rw [List.dropLast_cons_of_ne_nil hne, List.forall_mem_cons] at hbetween
        exact ⟨.inr hbetween.1, hbetween.2⟩
    obtain ⟨tokens, hreads, hpositions, hkinds⟩ :=
      ih hlength' hgaps hbetween'.2 (position + front.length + w.length)
    have hhead := isBlank_head?_layout (hgaps gap List.mem_cons_self) hlength' hbetween'.1
    have hlexeme : lexeme? (w ++ layout gap words gaps) =
        some ⟨some kind, w.length, layout gap words gaps⟩ := by
      have halone : lexeme? (w ++ []) = some ⟨some kind, w.length, []⟩ := by
        rwa [List.append_nil]
      exact lexeme?_of_stop halone hhead
    refine ⟨⟨kind, position + front.length⟩ :: tokens, ?_, ?_, ?_⟩
    · rw [layout_cons]
      exact .skip hfront (isBlank_head?_of_lexeme? hlexeme) (.token hlexeme hreads)
    · rw [List.map_cons, hpositions]
      rfl
    · rw [List.map_cons, hkinds]
      rfl

/-! ## Places -/

theorem le_of_mem_offsets : ∀ n ∈ offsets position words gaps, position ≤ n := by
  induction words generalizing position gaps with
  | nil => simp [offsets]
  | cons w words ih =>
    rcases gaps with _ | ⟨gap, gaps⟩
    · simp [offsets]
    · intro n hn
      rcases List.mem_cons.mp hn with rfl | hn
      · exact Nat.le_refl _
      · have hle := ih n hn
        omega

theorem pairwise_offsets (h : ∀ w ∈ words, w ≠ []) :
    (offsets position words gaps).Pairwise (· < ·) := by
  induction words generalizing position gaps with
  | nil => simp [offsets]
  | cons w words ih =>
    rcases gaps with _ | ⟨gap, gaps⟩
    · simp [offsets]
    · obtain ⟨hw, hwords⟩ := List.forall_mem_cons.mp h
      refine List.pairwise_cons.mpr ⟨fun n hn ↦ ?_, ih hwords⟩
      have hle := le_of_mem_offsets n hn
      have hpos := List.length_pos_of_ne_nil hw
      omega

theorem ne_nil_of_forall₂ (h : List.Forall₂ IsLexeme words kinds) : ∀ w ∈ words, w ≠ [] := by
  induction h with
  | nil => simp
  | cons hw _ ih =>
    refine List.forall_mem_cons.mpr ⟨?_, ih⟩
    rintro rfl
    cases hw

end Lexer

/-! ## Trees -/

theorem Lexer.exists_scans_of_tokens {source : Text} {tokens : List Token}
    (h : Lexer.tokens source = .ok tokens) :
    ∃ kinds, Scans source kinds ∧ tokens.map Token.kind = kinds ++ [.stop] := by
  obtain ⟨kinds, hscans⟩ := exists_scans_of_tokensWithin (Nat.le_refl source.length) h
  obtain ⟨body, htokens, hkinds⟩ := hscans.exists_tokens
  obtain rfl := Except.ok.inj (h.symm.trans htokens)
  exact ⟨kinds, hscans, by rw [List.map_append, hkinds]; rfl⟩

/-- Texts with the same kinds of tokens have the same tree or none. -/
theorem Condition.compile_iff_of_kinds {s t : Text} {tokens tokens' : List Token} {tree : Expr}
    (hs : Lexer.tokens s = .ok tokens) (ht : Lexer.tokens t = .ok tokens')
    (hkinds : tokens'.map Token.kind = tokens.map Token.kind) :
    compile t = .ok ⟨t, tree⟩ ↔ compile s = .ok ⟨s, tree⟩ := by
  obtain ⟨ks, hscans, hks⟩ := Lexer.exists_scans_of_tokens hs
  obtain ⟨kt, hscans', hkt⟩ := Lexer.exists_scans_of_tokens ht
  rw [hks, hkt, List.append_left_inj] at hkinds
  subst hkinds
  rw [compile_eq_ok_iff, compile_eq_ok_iff]
  refine and_congr (iff_of_true rfl rfl) (exists_congr fun kinds ↦ and_congr_left fun _ ↦ ?_)
  exact ⟨fun h ↦ h.unique hscans' ▸ hscans, fun h ↦ h.unique hscans ▸ hscans'⟩

namespace Lexer

/-- **White space between tokens does not matter.** A text that is scanned into tokens is made of
its lexemes and of white space, with the tokens where the lexemes start. With any other white space
in front and behind each lexeme, if some of it stands between each of them and the next, the text is
scanned into the same kinds of tokens, at the places where the lexemes are now, and it is compiled
to the same tree or not at all. -/
theorem tokens_layout {source : Text} {tokens : List Token}
    (h : Lexer.tokens source = .ok tokens) :
    (∃ front gaps, Tiles source tokens front (lexemes source) gaps) ∧
    ∀ front gaps, gaps.length = (lexemes source).length →
      (∀ gap ∈ front :: gaps, ∀ c ∈ gap, Text.isBlank c = true) →
      (∀ gap ∈ gaps.dropLast, gap ≠ []) →
      ∃ tokens', Lexer.tokens (layout front (lexemes source) gaps) = .ok tokens' ∧
        tokens'.map Token.kind = tokens.map Token.kind ∧
        Tiles (layout front (lexemes source) gaps) tokens' front (lexemes source) gaps ∧
        ∀ tree, Condition.compile (layout front (lexemes source) gaps) =
            .ok ⟨layout front (lexemes source) gaps, tree⟩ ↔
          Condition.compile source = .ok ⟨source, tree⟩ := by
  obtain ⟨front, gaps, kinds, hblank, hlength, htext, hpositions, hkinds, hwords⟩ :=
    (tokens_eq_ok_iff.mp h).exists_layout
  rw [Nat.zero_add] at hpositions
  refine ⟨⟨front, gaps, hblank, hlength, htext, hpositions, ?_⟩, ?_⟩
  · rw [hpositions]
    exact pairwise_offsets (ne_nil_of_forall₂ hwords)
  · intro front' gaps' hlength' hblank' hbetween'
    obtain ⟨tokens', hreads, hpositions', hkinds'⟩ :=
      reads_layout hwords hlength' hblank' hbetween' 0
    have htokens' := hreads.tokensWithin (Nat.le_refl _)
    rw [Nat.zero_add] at hpositions'
    have hsame : tokens'.map Token.kind = tokens.map Token.kind := hkinds'.trans hkinds.symm
    refine ⟨tokens', htokens', hsame, ⟨hblank', hlength', rfl, hpositions', ?_⟩,
      fun tree ↦ Condition.compile_iff_of_kinds h htokens' hsame⟩
    rw [hpositions']
    exact pairwise_offsets (ne_nil_of_forall₂ hwords)

/-- A quoted text keeps its blank, a number its point, and the equals signs stay together. -/
theorem tokens_layout_comparison :
    let source : Text := "'a b'!==1.&&.5"
    let words : List Text := ["'a b'", "!==", "1.", "&&", ".5"]
    let tokens : List Token := [⟨.text "a b", 0⟩, ⟨.symbol .strictUnequal, 5⟩,
      ⟨.number (Number.ofText? "1."), 8⟩, ⟨.symbol .and, 10⟩, ⟨.number (Number.ofText? ".5"), 12⟩,
      ⟨.stop, 14⟩]
    Lexer.tokens source = .ok tokens ∧ lexemes source = words ∧
    ∃ tokens', Lexer.tokens " 'a b' !==\t1.  &&\n.5" = .ok tokens' ∧
      tokens'.map Token.kind = tokens.map Token.kind ∧
      tokens'.map Token.position = [1, 7, 11, 15, 18, 20] := by
  intro source words tokens
  have h : Lexer.tokens source = .ok tokens := by decide +kernel
  have hlexemes : lexemes source = words := by decide +kernel
  have hlayout : layout " " words [" ", "\t", "  ", "\n", ""] = " 'a b' !==\t1.  &&\n.5" := by
    decide
  obtain ⟨tokens', htokens, hkinds, htiles, -⟩ := (@tokens_layout .usual _ _ h).2 " "
    [" ", "\t", "  ", "\n", ""] (by rw [hlexemes]; rfl) (by decide) (by decide)
  rw [hlexemes, hlayout] at htokens htiles
  exact ⟨h, hlexemes, tokens', htokens, hkinds, htiles.positions⟩

end Lexer

end MockApi
