import MockApi.Proofs.Condition.Printing
import MockApi.Proofs.Condition.Recognition
import MockApi.Proofs.Number.Recognition

/-!
# Compiling printed conditions

Printing a tree and compiling the text gives the tree back. The induction runs over the tree, and
its invariant `Spells` joins two facts about the text of each subtree: its tokens are a phrase of
the kind that the subtree is printed as, and the lexer takes just these tokens off the text in front
of anything that ends a word. The second fact needs to know how texts start and end, since a symbol
must not run into an equals sign and a word not into a letter or a digit.
-/

namespace MockApi

variable {stack : Stack}

namespace Lexer

/-! ## White space and symbols between words -/

theorem endsWord_nil : EndsWord [] := by
  intro c hc
  cases hc

theorem range_of_isBlank {c : Nat} (h : Text.isBlank c = true) : c ≤ 0x20 ∨ 0x7F ≤ c := by
  by_contra hvisible
  rw [Text.isBlank_eq_false (by omega) (by omega)] at h
  cases h

/-- White space is no part of a word. -/
theorem endsWord_of_isBlank {c : Nat} {t : Text} (h : Text.isBlank c = true) :
    EndsWord (c :: t) := by
  have hrange := range_of_isBlank h
  have hpart : isIdentPart c = false := by
    simp only [isIdentPart, isIdentStart, Text.isAsciiLetter, Text.isAsciiDigit, Char.reduceToNat]
    grind
  have hdigit : Text.isDigit c = false := by
    -- digits come in runs of ten, and no run meets a range of white space
    have hapart : ∀ z ∈ Text.digitZeros, ∀ r ∈ Text.blankRanges, r.2 < z ∨ z + 10 ≤ r.1 := by
      decide
    obtain ⟨r, hr, hin⟩ := List.any_eq_true.mp h
    rw [Text.isDigit, Text.digitValue?, Option.isSome_map, Option.isSome_eq_false_iff,
      Option.isNone_iff_eq_none, List.find?_eq_none]
    intro z hz
    have := hapart z hz r hr
    simp only [Bool.and_eq_true, decide_eq_true_eq] at hin ⊢
    omega
  intro d hd
  cases hd
  exact ⟨hpart, hdigit, by omega⟩

theorem endsWord_symbol {s : Symbol} (hs : s ≠ .dot) (t : Text) : EndsWord (s.spelling ++ t) := by
  obtain ⟨c, tail, hspelling, -, hdigit, hident, hdot, -⟩ := exists_spelling_eq_cons hs
  rw [hspelling]
  intro d hd
  cases hd
  have hascii : Text.isAsciiDigit c = false := by
    by_contra hne
    rw [Bool.not_eq_false] at hne
    rw [Text.isDigit_of_isAsciiDigit hne] at hdigit
    cases hdigit
  exact ⟨by rw [isIdentPart, hident, hascii]; rfl, hdigit, hdot⟩

theorem isBlank_head?_symbol {s : Symbol} (hs : s ≠ .dot) (t : Text) :
    ∀ c ∈ (s.spelling ++ t).head?, Text.isBlank c = false := by
  obtain ⟨c, tail, hspelling, hblank, -⟩ := exists_spelling_eq_cons hs
  rw [hspelling]
  intro d hd
  cases hd
  exact hblank

theorem endsWord_gap_symbol {gap : Text} (hgap : ∀ c ∈ gap, Text.isBlank c = true) {s : Symbol}
    (hs : s ≠ .dot) (t : Text) : EndsWord (gap ++ (s.spelling ++ t)) := by
  cases gap with
  | nil => exact endsWord_symbol hs t
  | cons b gap => exact endsWord_of_isBlank (hgap b List.mem_cons_self)

/-- A text starts with a code point of a lexeme other than the equals sign. -/
def StartsLexeme (t : Text) : Prop :=
  ∃ c tail, t = c :: tail ∧ Text.isBlank c = false ∧ c ≠ 0x3D

theorem StartsLexeme.append {t : Text} (h : StartsLexeme t) (rest : Text) :
    StartsLexeme (t ++ rest) := by
  obtain ⟨c, tail, rfl, hblank, hequals⟩ := h
  exact ⟨c, tail ++ rest, rfl, hblank, hequals⟩

theorem StartsLexeme.isBlank_head? {t : Text} (h : StartsLexeme t) :
    ∀ c ∈ t.head?, Text.isBlank c = false := by
  obtain ⟨c, tail, rfl, hblank, -⟩ := h
  intro d hd
  cases hd
  exact hblank

theorem StartsLexeme.ne_equals_head? {t : Text} (h : StartsLexeme t) :
    ∀ c ∈ t.head?, c ≠ 0x3D := by
  obtain ⟨c, tail, rfl, -, hequals⟩ := h
  intro d hd
  cases hd
  exact hequals

variable {gap : Text}

/-- White space may be put in front of anything else. -/
theorem Scans.blank (hgap : ∀ c ∈ gap, Text.isBlank c = true) {rest : Text}
    {kinds : List TokenKind} (hstart : ∀ c ∈ rest.head?, Text.isBlank c = false)
    (hrest : Scans rest kinds) : Scans (gap ++ rest) kinds := by
  by_cases hne : gap = []
  · rwa [hne]
  · exact hrest.lexeme hne (lexeme?_blank hne hgap hstart)

theorem ne_equals_of_gap (hgap : ∀ c ∈ gap, Text.isBlank c = true) {rest : Text}
    (hstart : StartsLexeme rest) : ∀ c ∈ (gap ++ rest).head?, c ≠ 0x3D := by
  cases gap with
  | nil => exact hstart.ne_equals_head?
  | cons b gap =>
    intro d hd
    cases hd
    have hrange := range_of_isBlank (hgap b List.mem_cons_self)
    omega

theorem Scans.symbol {s : Symbol} (hs : s ≠ .dot) {rest : Text} {kinds : List TokenKind}
    (hne : TakesEquals s → ∀ c ∈ rest.head?, c ≠ 0x3D) (hrest : Scans rest kinds) :
    Scans (s.spelling ++ rest) (.symbol s :: kinds) := by
  have hspelling : s.spelling ≠ [] := by
    obtain ⟨c, tail, h, -⟩ := exists_spelling_eq_cons hs
    simp [h]
  exact hrest.lexeme hspelling (lexeme?_symbol hs hne)

/-! ## Quoted texts -/

theorem splitQuotedBody?_mark (mark : Nat) (rest : Text) :
    splitQuotedBody? mark (mark :: rest) = some ([], rest) := by
  unfold splitQuotedBody?
  rw [if_pos rfl]

theorem splitQuotedBody?_backslash {mark c : Nat} (hmark : Text.backslash ≠ mark)
    (hfeed : c ≠ '\n'.toNat) (rest : Text) :
    splitQuotedBody? mark (Text.backslash :: c :: rest) =
      (splitQuotedBody? mark rest).map fun (body, left) ↦ (Text.backslash :: c :: body, left) := by
  rw [splitQuotedBody?.eq_def]
  simp only [if_neg hmark]
  rw [if_neg (by decide), if_pos trivial, if_neg hfeed]

theorem splitQuotedBody?_of_ne {mark c : Nat} (hmark : c ≠ mark) (hfeed : c ≠ '\n'.toNat)
    (hbackslash : c ≠ Text.backslash) (rest : Text) :
    splitQuotedBody? mark (c :: rest) =
      (splitQuotedBody? mark rest).map fun (body, left) ↦ (c :: body, left) := by
  rw [splitQuotedBody?.eq_def]
  simp only [if_neg hmark]
  rw [if_neg hfeed, if_neg hbackslash]

theorem unescape_of_ne {c : Nat} (h : c ≠ Text.backslash) (t : Text) :
    unescape (c :: t) = c :: unescape t := by
  cases t with
  | nil => rfl
  | cons d t =>
    rw [unescape.eq_def]
    simp only [h, ne_eq, not_false_eq_true, if_true]

theorem unescape_short {letter c : Nat} (h : shortEscape? letter = some c) (t : Text) :
    unescape (Text.backslash :: letter :: t) = c :: unescape t := by
  rw [unescape.eq_def]
  simp [h]

/-- An escape of no meaning stands for the escaped code point. -/
theorem unescape_other {letter : Nat} (hshort : shortEscape? letter = none)
    (hx : letter ≠ 'x'.toNat) (hu : letter ≠ 'u'.toNat) (t : Text) :
    unescape (Text.backslash :: letter :: t) = letter :: unescape t := by
  have hnumbered (digits : Text) : numberedEscape? letter digits = none := by
    simp only [numberedEscape?, hx, hu, false_and, or_self, if_false]
  rw [unescape.eq_def]
  simp only [hshort, hnumbered]
  rcases t with _ | ⟨a, _ | ⟨b, _ | ⟨d, _ | ⟨e, t⟩⟩⟩⟩ <;> simp [unescape]

/-- Escaped texts are unescaped to themselves. -/
theorem unescape_escape (t : Text) : unescape (t.flatMap escapeCodePoint) = t := by
  induction t with
  | nil => rfl
  | cons c t ih =>
    rw [List.flatMap_cons, escapeCodePoint]
    split_ifs with hfeed hmark
    · rw [List.cons_append, List.cons_append, List.nil_append, unescape_short rfl, ih, hfeed]
      rfl
    · have hshort : shortEscape? c = none ∧ c ≠ 'x'.toNat ∧ c ≠ 'u'.toNat := by
        rcases hmark with rfl | rfl <;> decide
      rw [List.cons_append, List.cons_append, List.nil_append,
        unescape_other hshort.1 hshort.2.1 hshort.2.2, ih]
    · rw [List.cons_append, List.nil_append, unescape_of_ne (fun heq ↦ hmark (.inl heq)), ih]

/-- An escaped text ends at the first apostrophe that no backslash takes along. -/
theorem splitQuotedBody?_escape (t rest : Text) :
    splitQuotedBody? Text.apostrophe (t.flatMap escapeCodePoint ++ Text.apostrophe :: rest) =
      some (t.flatMap escapeCodePoint, rest) := by
  induction t with
  | nil => exact splitQuotedBody?_mark Text.apostrophe rest
  | cons c t ih =>
    have hmark : Text.backslash ≠ Text.apostrophe := by decide
    rw [List.flatMap_cons, List.append_assoc, escapeCodePoint]
    split_ifs with hfeed hspecial
    · rw [List.cons_append, List.cons_append, List.nil_append,
        splitQuotedBody?_backslash hmark (by decide), ih]
      rfl
    · rw [List.cons_append, List.cons_append, List.nil_append,
        splitQuotedBody?_backslash hmark hfeed, ih]
      rfl
    · rw [not_or] at hspecial
      rw [List.cons_append, List.nil_append,
        splitQuotedBody?_of_ne hspecial.2 hfeed hspecial.1, ih]
      rfl

end Lexer

open Lexer

/-! ## Spellings of phrases -/

/-- A text spells a phrase: it starts a lexeme, and in front of anything that ends a word the lexer
takes the tokens of the phrase off it. -/
def Spells (t : Text) (kind : PhraseKind) (n : Nat) (e : Expr) : Prop :=
  StartsLexeme t ∧ ∃ kinds, Phrase kind n kinds e ∧
    ∀ ⦃rest ks⦄, EndsWord rest → Scans rest ks → Scans (t ++ rest) (kinds ++ ks)

namespace Spells

variable {t : Text} {kind place : PhraseKind} {n : Nat} {e : Expr}

/-- The spelling of a single token. -/
theorem token {k : TokenKind} (hstart : StartsLexeme t) (hphrase : Phrase kind n [k] e)
    (hlexeme : ∀ rest, EndsWord rest → lexeme? (t ++ rest) = some ⟨some k, t.length, rest⟩) :
    Spells t kind n e := by
  have hne : t ≠ [] := by
    obtain ⟨c, tail, rfl, -⟩ := hstart
    exact List.cons_ne_nil c tail
  exact ⟨hstart, [k], hphrase, fun rest ks hrest hscans ↦ hscans.lexeme hne (hlexeme rest hrest)⟩

/-- The spelling of a word. -/
theorem word {w : Text} (hphrase : Phrase kind n [.ident w] e) (hne : w ≠ [])
    (hhead : ∀ c ∈ w.head?, isIdentStart c = true)
    (htail : ∀ c ∈ w.tail, isIdentPart c = true) : Spells w kind n e := by
  obtain ⟨c, tail, rfl⟩ := List.exists_cons_of_ne_nil hne
  have hstart := hhead c rfl
  have hequals : c ≠ 0x3D := by
    rintro rfl
    exact absurd hstart (by decide)
  exact token ⟨c, tail, rfl, (visible_of_isIdentStart hstart).1, hequals⟩ hphrase
    fun rest hrest ↦ lexeme?_ident hstart htail fun c hc ↦ (hrest c hc).1

theorem literal {value : Literal} (h : value.Printable) :
    Spells value.print .primary 1 (.literal value) := by
  cases value with
  | null => exact word (.keyword (by decide)) (by decide) (by decide) (by decide)
  | undefined => exact word (.keyword (by decide)) (by decide) (by decide) (by decide)
  | bool b => cases b <;> exact word (.keyword (by decide)) (by decide) (by decide) (by decide)
  | number x =>
    cases x with
    | double x => exact absurd h id
    | int i =>
      obtain ⟨hsign, hdigits⟩ := h
      obtain ⟨m, rfl⟩ := Int.eq_ofNat_of_zero_le hsign
      have hascii : ∀ c ∈ Text.ofNat m, Text.isAsciiDigit c = true :=
        fun c ↦ Text.isAsciiDigit_of_mem_ofNat
      have hwritten : Text.ofInt m = Text.ofNat m := by
        rw [Text.ofInt, if_neg (Int.not_lt.mpr hsign), Int.natAbs_natCast]
      have hstart : StartsLexeme (Text.ofNat m) := by
        obtain ⟨c, tail, hcons⟩ := List.exists_cons_of_ne_nil (Text.ofNat_ne_nil m)
        have hc := hascii c (by rw [hcons]; exact List.mem_cons_self)
        refine ⟨c, tail, hcons, Text.isBlank_eq_false_of_isAsciiDigit hc, ?_⟩
        rintro rfl
        exact absurd hc (by decide)
      rw [Literal.print, Number.print, hwritten]
      refine token hstart (.number : Phrase _ _ [.number (some (.int m))] _) fun rest hrest ↦ ?_
      rw [lexeme?_digits (Text.ofNat_ne_nil m) hascii hrest, ← hwritten,
        Number.ofText?_ofInt hdigits]
  | text u =>
    refine token ⟨_, _, rfl, by decide, by decide⟩ .text fun rest _ ↦ ?_
    have hlexeme := lexeme?_quoted (.inl rfl) (splitQuotedBody?_escape u rest)
    rw [unescape_escape] at hlexeme
    simpa [Literal.print] using hlexeme

theorem name (name : BoundName) : Spells name.spelling .primary 1 (.name name) := by
  have hword : name.spelling ≠ [] ∧ (∀ c ∈ name.spelling.head?, isIdentStart c = true) ∧
      ∀ c ∈ name.spelling.tail, isIdentPart c = true := by
    cases name <;> decide
  exact word .name hword.1 hword.2.1 hword.2.2

theorem loosen (h : Spells t kind n e) (hfits : kind.Fits place) : Spells t place n e := by
  obtain ⟨hstart, kinds, hphrase, hscans⟩ := h
  exact ⟨hstart, kinds, hphrase.loosen hfits, hscans⟩

theorem parens (h : Spells t (.chain .or) n e) :
    Spells (Symbol.openParen.spelling ++ (t ++ Symbol.closeParen.spelling)) .primary (n + 1) e := by
  obtain ⟨hstart, kinds, hphrase, hscans⟩ := h
  refine ⟨⟨0x28, _, rfl, by decide, by decide⟩,
    .symbol .openParen :: (kinds ++ [.symbol .closeParen]), .parens hphrase, ?_⟩
  intro rest ks hrest hs
  have hclose := hs.symbol (s := .closeParen) (by decide) (fun h ↦ absurd h (by decide))
  have hinner := hscans (endsWord_symbol (s := .closeParen) (by decide) rest) hclose
  have hopen := hinner.symbol (s := .openParen) (by decide) (fun h ↦ absurd h (by decide))
  simpa using hopen

/-- A phrase is spelled in any place, between parentheses if need be. -/
theorem enclose (h : Spells t kind n e) (place : PhraseKind) :
    Spells (kind.enclose place t) place (kind.enclosedNesting place n) e := by
  unfold PhraseKind.enclose PhraseKind.enclosedNesting
  split
  · rename_i hfits
    exact h.loosen hfits
  · have hloose : kind.Fits (.chain .or) := Nat.zero_le _
    have htight : PhraseKind.primary.Fits place := by
      cases place with
      | chain level => cases level <;> decide
      | _ => decide
    exact (h.loosen hloose).parens.loosen htight

/-- A property access under a key. -/
theorem item {tkey : Text} {m : Nat} {key : Expr} (h : Spells t .member n e)
    (hkey : Spells tkey (.chain .or) m key) :
    Spells (t ++ (Symbol.openBracket.spelling ++ (tkey ++ Symbol.closeBracket.spelling))) .member
      (max n (m + 1)) (.member e key) := by
  obtain ⟨hstart, kinds, hphrase, hscans⟩ := h
  obtain ⟨-, kinds', hphrase', hscans'⟩ := hkey
  refine ⟨hstart.append _, _, .item hphrase hphrase', fun rest ks hrest hs ↦ ?_⟩
  have hclose := hs.symbol (s := .closeBracket) (by decide) (fun h ↦ absurd h (by decide))
  have hinner := hscans' (endsWord_symbol (s := .closeBracket) (by decide) rest) hclose
  have hopen := hinner.symbol (s := .openBracket) (by decide) (fun h ↦ absurd h (by decide))
  simpa using hscans (endsWord_symbol (s := .openBracket) (by decide) _) hopen

/-- A property of a bound name, behind a point. -/
theorem property (name : BoundName) {w : Text} (hne : w ≠ [])
    (hhead : ∀ c ∈ w.head?, isIdentStart c = true) (htail : ∀ c ∈ w.tail, isIdentPart c = true) :
    Spells (name.spelling ++ (Symbol.dot.spelling ++ w)) .member 1
      (.member (.name name) (.literal (.text w))) := by
  have hpoint (rest : Text) :
      lexeme? (name.spelling ++ (Symbol.dot.spelling ++ rest)) =
        some ⟨some (.ident name.spelling), name.spelling.length, Symbol.dot.spelling ++ rest⟩ := by
    have hends : ∀ c ∈ (Symbol.dot.spelling ++ rest).head?, isIdentPart c = false :=
      fun c hc ↦ Option.some.inj hc ▸ by decide
    cases name <;> exact lexeme?_ident (by decide) (by decide) hends
  refine ⟨(Spells.name name).1.append _, _, .property (.target .name), fun rest ks hrest hs ↦ ?_⟩
  obtain ⟨c, tail, rfl⟩ := List.exists_cons_of_ne_nil hne
  have hword := hs.lexeme hne
    (lexeme?_ident (hhead c rfl) htail fun c hc ↦ (hrest c hc).1)
  have hdot := hword.lexeme (w := Symbol.dot.spelling) (by decide)
    (lexeme?_dot fun d hd ↦ Option.some.inj hd ▸ (visible_of_isIdentStart (hhead c rfl)).2)
  have hname : name.spelling ≠ [] := by cases name <;> decide
  simpa using hdot.lexeme hname (hpoint _)

/-- A unary operator in front of its operand. -/
theorem unary (op : UnaryOp) (h : Spells t .unary n e) :
    Spells (op.symbol.spelling ++ t) .unary (n + 1) (.unary op e) := by
  obtain ⟨hstart, kinds, hphrase, hscans⟩ := h
  obtain ⟨c, tail, hspelling, hblank, -⟩ := exists_spelling_eq_cons op.symbol_ne_dot
  have hequals : c ≠ 0x3D := by
    have hhead : op.symbol.spelling.head? ≠ some 0x3D := by cases op <;> decide
    rintro rfl
    exact hhead (by rw [hspelling]; rfl)
  refine ⟨⟨c, tail ++ t, by rw [hspelling]; rfl, hblank, hequals⟩, _,
    .sign op.mem_symbols hphrase, fun rest ks hrest hs ↦ ?_⟩
  have hne := (hstart.append rest).ne_equals_head?
  simpa using (hscans hrest hs).symbol op.symbol_ne_dot fun _ ↦ hne

/-- An operator between its operands, with white space around it. -/
theorem operator {gap tright : Text} {m : Nat} {right : Expr}
    (hgap : ∀ c ∈ gap, Text.isBlank c = true) (op : Operator)
    (h : Spells t (.chain op.level) n e) (hright : Spells tright op.level.operandKind m right) :
    Spells (t ++ (gap ++ (op.symbol.spelling ++ (gap ++ tright)))) (.chain op.level) (max n m)
      (op.apply e right) := by
  obtain ⟨hstart, kinds, hphrase, hscans⟩ := h
  obtain ⟨hstart', kinds', hphrase', hscans'⟩ := hright
  refine ⟨hstart.append _, _, .operator op.mem_operators hphrase hphrase',
    fun rest ks hrest hs ↦ ?_⟩
  have hdot := op.symbol_ne_dot
  -- scanning is put together from the right end of the text to the left
  have hafter := (hscans' hrest hs).blank hgap (hstart'.append rest).isBlank_head?
  have hsymbol := hafter.symbol hdot fun _ ↦ ne_equals_of_gap hgap (hstart'.append rest)
  have hbefore := hsymbol.blank hgap (isBlank_head?_symbol hdot _)
  simpa using hscans (endsWord_gap_symbol hgap hdot _) hbefore

/-- Every printed tree is a spelling of a phrase with that tree. -/
theorem print {gap : Text} (hgap : ∀ c ∈ gap, Text.isBlank c = true) {e : Expr}
    (h : e.Printable) : Spells (e.print gap) e.kind e.nesting e := by
  induction e with
  | literal value => exact literal h
  | name n => exact name n
  | member target key iht ihk =>
    have hloose : key.kind.Fits (.chain .or) := Nat.zero_le _
    exact ((iht h.1).enclose .member).item ((ihk h.2).loosen hloose)
  | unary op operand ih => exact ((ih h).enclose .unary).unary op
  | logical op left right ihl ihr =>
    exact ((ihl h.1).enclose _).operator hgap (.logical op) ((ihr h.2).enclose _)
  | binary op left right ihl ihr =>
    exact ((ihl h.1).enclose _).operator hgap (.binary op) ((ihr h.2).enclose _)

/-- The text of a spelling is compiled to the tree of its phrase, if that is not too deep. -/
theorem compile_eq (h : Spells t kind n e) :
    ∃ tokens, Lexer.tokens t = .ok tokens ∧
      (∀ levels, Parser.parseWithin levels tokens =
        if n ≤ levels then .ok e else .error .tooDeep) ∧
      Condition.compile t = if n ≤ Stack.parsing then .ok ⟨t, e⟩ else .error .tooDeep := by
  have hloose : kind.Fits (.chain .or) := Nat.zero_le _
  obtain ⟨-, kinds, hphrase, hscans⟩ := h.loosen hloose
  have hall := hscans endsWord_nil scans_nil
  rw [List.append_nil, List.append_nil] at hall
  obtain ⟨body, htokens, rfl⟩ := hall.exists_tokens
  have hparse (levels : Nat) :
      Parser.parseWithin levels (body ++ [⟨.stop, t.length⟩]) =
        if n ≤ levels then .ok e else .error .tooDeep := Parser.parseWithin_of_phrase _ hphrase
  refine ⟨_, htokens, hparse, ?_⟩
  unfold Condition.compile
  rw [htokens, ok_bind, Parser.parse, hparse]
  by_cases hn : n ≤ Stack.parsing
  · rw [if_pos hn, if_pos hn]
    rfl
  · rw [if_neg hn, if_neg hn]
    rfl

/-- There is always room for a small spelling. -/
theorem compile_of_le_four (h : Spells t kind n e) (hn : n ≤ 4) :
    Condition.compile t = .ok ⟨t, e⟩ := by
  obtain ⟨-, -, -, hcompile⟩ := @compile_eq stack _ _ _ _ h
  rwa [if_pos (hn.trans Stack.four_le_parsing)] at hcompile

end Spells

namespace Condition

/-- **Compiling undoes printing.** With white space or nothing around its operators, a printable
tree is printed as a text whose tokens have the same tree, for any number of levels that is large
enough for its nesting. So the text compiles to the same tree, unless it is refused as too deep. -/
theorem compile_print {gap : Text} (hgap : ∀ c ∈ gap, Text.isBlank c = true) {e : Expr}
    (h : e.Printable) :
    (∃ tokens, Lexer.tokens (e.print gap) = .ok tokens ∧
      ∀ levels, e.nesting ≤ levels → Parser.parseWithin levels tokens = .ok e) ∧
    (compile (e.print gap) = .ok ⟨e.print gap, e⟩ ∨ compile (e.print gap) = .error .tooDeep) := by
  obtain ⟨tokens, htokens, hparse, hcompile⟩ := (Spells.print hgap h).compile_eq
  refine ⟨⟨tokens, htokens, fun levels hlevels ↦ by rw [hparse, if_pos hlevels]⟩, ?_⟩
  rw [hcompile]
  exact ite_eq_or_eq ..

/-- A difference as the operand of a product is printed between parentheses and compiled again. -/
theorem compile_print_product :
    letI : Stack := .usual
    let e : Expr := .binary (.arithmetic .multiply)
      (.binary (.arithmetic .subtract) (.literal (.number (.int 1))) (.name .path))
      (.unary .negate (.literal (.text "it's")))
    (∀ c ∈ (↑" " : Text), Text.isBlank c = true) ∧ e.Printable ∧
      e.print " " = "(1 - path) * -'it\\'s'" ∧
      compile "(1 - path) * -'it\\'s'" = .ok ⟨"(1 - path) * -'it\\'s'", e⟩ := by
  intro e
  let stack : Stack := .usual
  have hgap : ∀ c ∈ (↑" " : Text), Text.isBlank c = true := by decide
  have hprintable : e.Printable := ⟨⟨⟨by decide, by decide⟩, trivial⟩, trivial⟩
  have hprint : e.print " " = "(1 - path) * -'it\\'s'" := rfl
  obtain ⟨⟨tokens, htokens, hparse⟩, -⟩ := @compile_print stack _ hgap _ hprintable
  rw [hprint] at htokens
  refine ⟨hgap, hprintable, hprint, ?_⟩
  rw [compile, htokens, ok_bind, Parser.parse, hparse _ (by decide)]
  rfl

end Condition

namespace Expr

/-- A negation in front of a tree, several times. -/
def negations (count : Nat) (e : Expr) : Expr := Nat.repeat (unary .not) count e

variable {e : Expr}

/-- No parentheses stand around a negation or what it negates. -/
theorem fits_negations (h : e.kind.Fits .unary) (count : Nat) :
    (e.negations count).kind.Fits .unary := by
  cases count with
  | zero => exact h
  | succ count => exact Nat.le_refl _

theorem nesting_negations (h : e.kind.Fits .unary) (count : Nat) :
    (e.negations count).nesting = e.nesting + count := by
  induction count with
  | zero => rfl
  | succ count ih =>
    have hfits := fits_negations h count
    rw [← Nat.add_assoc, ← ih]
    exact congrArg (· + 1) (if_pos hfits)

theorem print_negations (gap : Text) (h : e.kind.Fits .unary) (count : Nat) :
    (e.negations count).print gap = List.replicate count 0x21 ++ e.print gap := by
  induction count with
  | zero => rfl
  | succ count ih =>
    have hfits := fits_negations h count
    rw [List.replicate_succ, List.cons_append, ← ih]
    exact congrArg (List.cons 0x21) (if_pos hfits)

theorem printable_negations (h : e.Printable) (count : Nat) : (e.negations count).Printable := by
  induction count with
  | zero => exact h
  | succ count ih => exact ih

/-- A disjunction with negations on its right is printed as a text that is compiled only if there
are levels enough for the negations. -/
theorem compile_print_negations (count : Nat) :
    (logical .or (literal (.bool true)) ((literal .null).negations count)).Printable ∧
    (logical .or (literal (.bool true)) ((literal .null).negations count)).print [] =
      Text.ofString "true||" ++ (List.replicate count 0x21 ++ Text.ofString "null") ∧
    (Stack.parsing ≤ count → Condition.compile
      (Text.ofString "true||" ++ (List.replicate count 0x21 ++ Text.ofString "null")) =
        .error .tooDeep) := by
  have hliteral : (literal .null).kind.Fits .unary := by decide
  have hfits : ((literal .null).negations count).kind.Fits (.chain .and) :=
    Nat.le_trans (by decide) (fits_negations hliteral count)
  have hprintable :
      (logical .or (literal (.bool true)) ((literal .null).negations count)).Printable :=
    ⟨trivial, printable_negations (e := literal .null) trivial count⟩
  have hprint : (logical .or (literal (.bool true)) ((literal .null).negations count)).print [] =
      Text.ofString "true||" ++ (List.replicate count 0x21 ++ Text.ofString "null") := by
    have hright : ((literal .null).negations count).kind.enclose (.chain .and)
        (((literal .null).negations count).print []) =
          List.replicate count 0x21 ++ Text.ofString "null" := by
      rw [PhraseKind.enclose, if_pos hfits, print_negations [] hliteral]
      rfl
    exact congrArg (Text.ofString "true||" ++ ·) hright
  refine ⟨hprintable, hprint, fun hcount ↦ ?_⟩
  have hdeep : count < (logical .or (literal (.bool true))
      ((literal .null).negations count)).nesting := by
    have hright : ((literal .null).negations count).kind.enclosedNesting (.chain .and)
        ((literal .null).negations count).nesting = 1 + count := by
      rw [PhraseKind.enclosedNesting, if_pos hfits, nesting_negations hliteral]
      rfl
    calc count < 1 + count := by omega
      _ = _ := hright.symm
      _ ≤ _ := Nat.le_max_right ..
  have hgap : ∀ c ∈ ([] : Text), Text.isBlank c = true := by simp
  obtain ⟨-, -, -, hcompile⟩ := (Spells.print hgap hprintable).compile_eq
  rwa [hprint, if_neg (by omega)] at hcompile

end Expr

namespace Condition

/-- Three thousand negations are printed, but refused as too deep. -/
theorem compile_print_too_deep :
    letI : Stack := .usual
    (Expr.logical .or (.literal (.bool true)) ((Expr.literal .null).negations 3000)).Printable ∧
    (Expr.logical .or (.literal (.bool true)) ((Expr.literal .null).negations 3000)).print [] =
      Text.ofString "true||" ++ (List.replicate 3000 0x21 ++ Text.ofString "null") ∧
    compile (Text.ofString "true||" ++ (List.replicate 3000 0x21 ++ Text.ofString "null")) =
      .error .tooDeep := by
  let stack : Stack := .usual
  obtain ⟨hprintable, hprint, hcompile⟩ := Expr.compile_print_negations 3000
  exact ⟨hprintable, hprint, hcompile (by decide)⟩

end Condition

end MockApi
