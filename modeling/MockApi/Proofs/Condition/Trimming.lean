import MockApi.Proofs.Condition.RoundTrip
import MockApi.Proofs.Endpoint.RoundTrip

/-!
# White space around conditions

White space around a condition does not matter: with it and without it the condition is scanned into
the same kinds of tokens, and so it has the same tree or none. In front it is a lexeme of its own.
At the end it is one as well, because no lexeme of another class goes on with white space; that is
seen class by class, for lexemes of texts that do not end in white space themselves.
-/

namespace MockApi

variable {stack : Stack}

namespace Lexer

/-! ## Splitting in front of white space -/

section Gap

variable {gap t : Text}

/-- A lexeme with more text after it. -/
def Lexeme.followedBy (gap : Text) (l : Lexeme) : Lexeme := { l with left := l.left ++ gap }

/-- A split of a text with more text after it. -/
def putAfter (gap : Text) (parts : Text × Text) : Text × Text := (parts.1, parts.2 ++ gap)

theorem spanDigits_append_blank (hgap : ∀ c ∈ gap.head?, Text.isBlank c = true) (t : Text) :
    Numeral.spanDigits (t ++ gap) = putAfter gap (Numeral.spanDigits t) := by
  have hstop : ∀ c ∈ gap.head?, Text.isDigit c = false :=
    fun c hc ↦ (endsWord_of_isBlank (t := []) (hgap c hc) c rfl).2.1
  obtain ⟨htake, hdrop⟩ := Text.takeWhile_append_of_ends (t := t) (.inr hstop)
  simp only [Numeral.spanDigits, htake, hdrop, putAfter]

theorem isHexDigit_eq_false_of_isBlank {c : Nat} (h : Text.isBlank c = true) :
    isHexDigit c = false := by
  have hrange := range_of_isBlank h
  simp only [isHexDigit, Text.hexDigit?, Text.isAsciiDigit, Char.reduceToNat, Bool.and_eq_true,
    decide_eq_true_eq]
  grind

theorem splitHex?_append_blank (hgap : ∀ c ∈ gap.head?, Text.isBlank c = true) (t : Text) :
    splitHex? (t ++ gap) = (splitHex? t).map (putAfter gap) := by
  rcases t with _ | ⟨z, _ | ⟨x, rest⟩⟩
  · cases gap with
    | nil => rfl
    | cons b gap =>
      refine splitHex?_eq_none ?_
      rintro rfl
      exact absurd (hgap _ rfl) (by decide)
  · cases gap with
    | nil => rfl
    | cons b gap =>
      refine if_neg fun hand ↦ ?_
      rcases hand.2.1 with rfl | rfl <;> exact absurd (hgap _ rfl) (by decide)
  · have hstop : ∀ c ∈ gap.head?, isHexDigit c = false :=
      fun c hc ↦ isHexDigit_eq_false_of_isBlank (hgap c hc)
    obtain ⟨htake, hdrop⟩ := Text.takeWhile_append_of_ends (t := rest) (.inr hstop)
    simp only [List.cons_append, splitHex?, htake, hdrop]
    split <;> rfl

theorem splitFraction_append_blank (hgap : ∀ c ∈ gap.head?, Text.isBlank c = true) (t : Text) :
    splitFraction (t ++ gap) = putAfter gap (splitFraction t) := by
  cases t with
  | nil =>
    refine splitFraction_of_ne fun c hc ↦ ?_
    rintro rfl
    exact absurd (hgap _ hc) (by decide)
  | cons c rest =>
    simp only [List.cons_append, splitFraction, spanDigits_append_blank hgap]
    split <;> rfl

theorem splitExponent_append_blank (hgap : ∀ c ∈ gap.head?, Text.isBlank c = true) (t : Text) :
    splitExponent (t ++ gap) = putAfter gap (splitExponent t) := by
  rcases t with _ | ⟨e, _ | ⟨c, rest⟩⟩
  · refine splitExponent_of_isIdentStart_eq_false fun c hc ↦ ?_
    have hpart := (endsWord_of_isBlank (t := []) (hgap c hc) c rfl).1
    rw [isIdentPart, Bool.or_eq_false_iff] at hpart
    exact hpart.1
  · -- an exponent needs a digit, and white space has none
    have hspan : Numeral.spanDigits gap = ([], gap) := spanDigits_append_blank hgap []
    cases gap with
    | nil => simp [splitExponent, Numeral.spanDigits, putAfter]
    | cons b gap =>
      have hsign : ¬(b = '+'.toNat ∨ b = '-'.toNat) := by
        rintro (rfl | rfl) <;> exact absurd (hgap _ rfl) (by decide)
      simp only [List.cons_append, List.nil_append, splitExponent, if_neg hsign, hspan]
      simp [Numeral.spanDigits, putAfter]
  · simp only [List.cons_append, splitExponent]
    by_cases hsign : c = '+'.toNat ∨ c = '-'.toNat
    · simp only [if_pos hsign, spanDigits_append_blank hgap, putAfter]
      split <;> rfl
    · simp only [if_neg hsign, ← List.cons_append, spanDigits_append_blank hgap, putAfter]
      split <;> rfl

theorem splitDecimal?_append_blank (hgap : ∀ c ∈ gap.head?, Text.isBlank c = true) (t : Text) :
    splitDecimal? (t ++ gap) = (splitDecimal? t).map (putAfter gap) := by
  simp only [splitDecimal?, spanDigits_append_blank hgap, putAfter,
    splitFraction_append_blank hgap, splitExponent_append_blank hgap]
  split <;> rfl

theorem splitQuotedBody?_eq_none {mark : Nat} (h : mark ∉ t) : splitQuotedBody? mark t = none := by
  rw [Option.eq_none_iff_forall_ne_some]
  rintro ⟨body, left⟩ hsplit
  exact h (by rw [splitQuotedBody?_append hsplit]; simp)

theorem splitQuotedBody?_append_blank {mark : Nat} (hmark : mark ∉ gap) (t : Text) :
    splitQuotedBody? mark (t ++ gap) = (splitQuotedBody? mark t).map (putAfter gap) := by
  fun_induction splitQuotedBody? mark t with
  | case1 => exact splitQuotedBody?_eq_none hmark
  | case2 rest => exact splitQuotedBody?_mark mark (rest ++ gap)
  | case3 rest hne =>
    rw [List.cons_append, splitQuotedBody?.eq_def]
    simp only [if_neg hne]
    rfl
  | case4 hmark' hfeed =>
    -- a backslash at the end takes white space along, which holds no mark
    rw [List.cons_append, List.nil_append]
    exact splitQuotedBody?_eq_none fun hmem ↦
      (List.mem_cons.mp hmem).elim (fun heq ↦ hmark' heq.symm) hmark
  | case5 rest hmark' hfeed =>
    rw [List.cons_append, List.cons_append, splitQuotedBody?.eq_def]
    simp only [if_neg hmark']
    rfl
  | case6 e rest hfeed hmark' hbackslash ih =>
    rw [List.cons_append, List.cons_append, splitQuotedBody?_backslash hmark' hfeed, ih]
    cases splitQuotedBody? mark rest <;> rfl
  | case7 c rest hne hfeed hbackslash ih =>
    rw [List.cons_append, splitQuotedBody?_of_ne hne hfeed hbackslash, ih]
    cases splitQuotedBody? mark rest <;> rfl

theorem splitSymbol?_append_blank (hgap : ∀ c ∈ gap.head?, Text.isBlank c = true) (t : Text) :
    splitSymbol? (t ++ gap) = (splitSymbol? t).map fun (s, left) ↦ (s, left ++ gap) := by
  have hvisible : ∀ s ∈ Symbol.all, ∀ c ∈ s.spelling, Text.isBlank c = false := by decide
  have hprefix (s : Symbol) : s.spelling.isPrefixOf? (t ++ gap) =
      (s.spelling.isPrefixOf? t).map (· ++ gap) := by
    refine Text.isPrefixOf?_append_of_ends fun c hc hmem ↦ ?_
    have hblank := hgap c hc
    rw [hvisible s s.mem_all c hmem] at hblank
    cases hblank
  unfold splitSymbol?
  generalize Symbol.all = symbols
  induction symbols with
  | nil => rfl
  | cons s symbols ih =>
    rw [List.findSome?_cons, List.findSome?_cons, hprefix, ih]
    cases s.spelling.isPrefixOf? t <;> rfl

/-! ## Lexemes in front of white space -/

theorem blank?_append (h : ∃ c ∈ t, Text.isBlank c = false) :
    blank? (t ++ gap) = (blank? t).map (Lexeme.followedBy gap) := by
  have hstop : (∃ c ∈ t, Text.isBlank c = false) ∨ ∀ c ∈ gap.head?, Text.isBlank c = false := .inl h
  obtain ⟨htake, hdrop⟩ := Text.takeWhile_append_of_ends hstop
  simp only [blank?, htake, hdrop]
  split <;> rfl

theorem number?_append_blank (hgap : ∀ c ∈ gap.head?, Text.isBlank c = true) (t : Text) :
    number? (t ++ gap) = (number? t).map (Lexeme.followedBy gap) := by
  simp only [number?, splitNumber?, splitHex?_append_blank hgap, splitDecimal?_append_blank hgap]
  cases splitHex? t with
  | some parts => rfl
  | none => cases splitDecimal? t <;> rfl

theorem ident?_append_blank (hgap : ∀ c ∈ gap.head?, Text.isBlank c = true) (hne : t ≠ []) :
    ident? (t ++ gap) = (ident? t).map (Lexeme.followedBy gap) := by
  obtain ⟨c, rest, rfl⟩ := List.exists_cons_of_ne_nil hne
  have hstop : ∀ d ∈ gap.head?, isIdentPart d = false :=
    fun d hd ↦ (endsWord_of_isBlank (t := []) (hgap d hd) d rfl).1
  obtain ⟨htake, hdrop⟩ := Text.takeWhile_append_of_ends (t := rest) (.inr hstop)
  simp only [List.cons_append, ident?, htake, hdrop]
  split <;> rfl

theorem symbol?_append_blank (hgap : ∀ c ∈ gap.head?, Text.isBlank c = true) (t : Text) :
    symbol? (t ++ gap) = (symbol? t).map (Lexeme.followedBy gap) := by
  simp only [symbol?, splitSymbol?_append_blank hgap]
  cases splitSymbol? t <;> rfl

/-- White space behind a text that is not blank goes to what is left of it by its first lexeme. -/
theorem lexeme?_append_blank (hgap : ∀ c ∈ gap, Text.isBlank c = true)
    (h : ∃ c ∈ t, Text.isBlank c = false) :
    lexeme? (t ++ gap) = (lexeme? t).map (Lexeme.followedBy gap) := by
  have hhead : ∀ c ∈ gap.head?, Text.isBlank c = true :=
    fun c hc ↦ hgap c (List.mem_of_mem_head? hc)
  have hne : t ≠ [] := by
    obtain ⟨c, hc, -⟩ := h
    exact List.ne_nil_of_mem hc
  have hquoted : quoted? (t ++ gap) = (quoted? t).map (Lexeme.followedBy gap) := by
    obtain ⟨c, rest, rfl⟩ := List.exists_cons_of_ne_nil hne
    by_cases hmark : c = Text.apostrophe ∨ c = Text.quotationMark
    · have hmem : c ∉ gap := by
        intro hmem
        rcases hmark with rfl | rfl <;> exact absurd (hgap _ hmem) (by decide)
      simp only [List.cons_append, quoted?, splitQuoted?, if_pos hmark,
        splitQuotedBody?_append_blank hmem]
      cases splitQuotedBody? c rest <;> rfl
    · simp only [List.cons_append, quoted?, splitQuoted?, if_neg hmark]
      rfl
  simp only [lexeme?, blank?_append h, number?_append_blank hhead, hquoted,
    ident?_append_blank hhead hne, symbol?_append_blank hhead, Option.map_or]

end Gap

/-! ## Scanning is determined by a single run -/

variable {t : Text} {kinds : List TokenKind}

/-- A text that is scanned from some place is scanned from everywhere. -/
theorem exists_scans_of_tokensWithin {steps position : Nat} {tokens : List Token}
    (hsteps : t.length ≤ steps) (h : tokensWithin steps position t = .ok tokens) :
    ∃ kinds, Scans t kinds := by
  induction steps generalizing position t tokens with
  | zero =>
    obtain rfl := List.length_eq_zero_iff.mp (Nat.le_zero.mp hsteps)
    exact ⟨[], scans_nil⟩
  | succ steps ih =>
    cases t with
    | nil => exact ⟨[], scans_nil⟩
    | cons c rest =>
      unfold tokensWithin at h
      cases hlexeme : lexeme? (c :: rest) with
      | none => simp [hlexeme] at h
      | some l =>
        simp only [hlexeme] at h
        obtain ⟨inner, hinner, -⟩ := bind_eq_ok_iff.mp h
        obtain ⟨w, htext, hlength, hne⟩ := exists_eq_append_of_lexeme? hlexeme
        have hleft : l.left.length ≤ steps := by
          have hpos := List.length_pos_of_ne_nil hne
          rw [htext, List.length_append] at hsteps
          omega
        obtain ⟨ks, hscans⟩ := ih hleft hinner
        rw [htext] at hlexeme ⊢
        refine ⟨l.token?.toList ++ ks, hscans.lexeme hne ?_⟩
        rw [hlexeme, hlength]

/-- A text is scanned in one way. -/
theorem Scans.unique {kinds' : List TokenKind} (h : Scans t kinds) (h' : Scans t kinds') :
    kinds = kinds' := by
  obtain ⟨body, htokens, rfl⟩ := h.exists_tokens
  obtain ⟨body', htokens', rfl⟩ := h'.exists_tokens
  rw [htokens, Except.ok.injEq, List.append_left_inj] at htokens'
  rw [htokens']

/-- A text is scanned by way of its first lexeme. -/
theorem scans_iff_of_lexeme? {l : Lexeme} (h : lexeme? t = some l) :
    Scans t kinds ↔ ∃ ks, Scans l.left ks ∧ kinds = l.token?.toList ++ ks := by
  obtain ⟨w, htext, hlength, hne⟩ := exists_eq_append_of_lexeme? h
  have hcons {ks : List TokenKind} (hleft : Scans l.left ks) :
      Scans t (l.token?.toList ++ ks) := by
    rw [htext] at h ⊢
    exact hleft.lexeme hne (by rw [h, hlength])
  constructor
  · intro hscans
    obtain ⟨c, rest, rfl⟩ := List.exists_cons_of_ne_nil (l := t) (by rw [htext]; simp [hne])
    obtain ⟨body, htokens, -⟩ := hscans (Nat.le_refl (c :: rest).length) 0
    rw [List.length_cons, tokensWithin, h] at htokens
    obtain ⟨inner, hinner, -⟩ := bind_eq_ok_iff.mp htokens
    have hleft : l.left.length ≤ rest.length := by
      have hpos := List.length_pos_of_ne_nil hne
      have htotal := congrArg List.length htext
      rw [List.length_append, List.length_cons] at htotal
      omega
    obtain ⟨ks, hks⟩ := exists_scans_of_tokensWithin hleft hinner
    exact ⟨ks, hks, hscans.unique (hcons hks)⟩
  · rintro ⟨ks, hks, rfl⟩
    exact hcons hks

theorem not_scans_of_lexeme? (hne : t ≠ []) (h : lexeme? t = none) : ¬Scans t kinds := by
  intro hscans
  obtain ⟨c, rest, rfl⟩ := List.exists_cons_of_ne_nil hne
  obtain ⟨body, htokens, -⟩ := hscans (Nat.le_refl (c :: rest).length) 0
  rw [List.length_cons, tokensWithin, h] at htokens
  cases htokens

/-! ## Scanning without the white space around a text -/

theorem scans_blank_append_iff {gap : Text} (hgap : ∀ c ∈ gap, Text.isBlank c = true)
    (hstart : ∀ c ∈ t.head?, Text.isBlank c = false) : Scans (gap ++ t) kinds ↔ Scans t kinds := by
  by_cases hne : gap = []
  · rw [hne, List.nil_append]
  · rw [scans_iff_of_lexeme? (lexeme?_blank hne hgap hstart)]
    constructor
    · rintro ⟨ks, hks, rfl⟩
      exact hks
    · intro h
      exact ⟨kinds, h, rfl⟩

theorem scans_append_blank_iff {gap : Text} (hgap : ∀ c ∈ gap, Text.isBlank c = true)
    (hend : ∀ c ∈ t.getLast?, Text.isBlank c = false) :
    Scans (t ++ gap) kinds ↔ Scans t kinds := by
  -- lexeme by lexeme: what a lexeme leaves is shorter and has the same end
  induction hn : t.length using Nat.strong_induction_on generalizing t kinds with
  | _ n ih =>
    by_cases hne : t = []
    · have hnil : ∀ c ∈ ([] : Text).head?, Text.isBlank c = false := by simp
      have hiff : Scans (gap ++ []) kinds ↔ Scans [] kinds := scans_blank_append_iff hgap hnil
      rwa [hne, List.nil_append, ← List.append_nil gap]
    · have hlast := List.getLast?_eq_some_getLast hne
      have hvisible : ∃ c ∈ t, Text.isBlank c = false :=
        ⟨t.getLast hne, List.getLast_mem hne, hend _ hlast⟩
      have happend := lexeme?_append_blank hgap hvisible
      cases hlexeme : lexeme? t with
      | none =>
        rw [hlexeme] at happend
        have hboth : t ++ gap ≠ [] := by simp [hne]
        exact iff_of_false (not_scans_of_lexeme? hboth happend) (not_scans_of_lexeme? hne hlexeme)
      | some l =>
        rw [hlexeme] at happend
        obtain ⟨w, htext, -, hw⟩ := exists_eq_append_of_lexeme? hlexeme
        have hshorter : l.left.length < n := by
          have hpos := List.length_pos_of_ne_nil hw
          rw [← hn, htext, List.length_append]
          omega
        have hleft : ∀ c ∈ l.left.getLast?, Text.isBlank c = false := by
          intro c hc
          refine hend c ?_
          rw [htext, List.getLast?_append, hc]
          rfl
        rw [scans_iff_of_lexeme? happend, scans_iff_of_lexeme? hlexeme]
        exact exists_congr fun ks ↦ and_congr_left fun _ ↦ ih _ hshorter hleft rfl

/-- White space around a text does not change its tokens. -/
theorem scans_trim_iff : Scans t.trim kinds ↔ Scans t kinds := by
  have hfront : t = t.takeWhile Text.isBlank ++ t.dropWhile Text.isBlank :=
    List.takeWhile_append_dropWhile.symm
  have hback : t.dropWhile Text.isBlank =
      t.trim ++ ((t.dropWhile Text.isBlank).reverse.takeWhile Text.isBlank).reverse := by
    rw [Text.trim, Text.trimWhile, Text.dropEndWhile, ← List.reverse_append,
      List.takeWhile_append_dropWhile, List.reverse_reverse]
  have hlead : ∀ c ∈ t.takeWhile Text.isBlank, Text.isBlank c = true :=
    List.all_eq_true.mp (List.all_takeWhile ..)
  have htrail : ∀ c ∈ ((t.dropWhile Text.isBlank).reverse.takeWhile Text.isBlank).reverse,
      Text.isBlank c = true := fun c hc ↦
    List.all_eq_true.mp (List.all_takeWhile ..) c (List.mem_reverse.mp hc)
  have hstart : ∀ c ∈ (t.dropWhile Text.isBlank).head?, Text.isBlank c = false :=
    fun c ↦ Text.eq_false_of_mem_head?_dropWhile
  have hend : ∀ c ∈ t.trim.getLast?, Text.isBlank c = false :=
    fun c ↦ Text.eq_false_of_mem_getLast?_trimWhile
  rw [← scans_append_blank_iff htrail hend, ← hback, ← scans_blank_append_iff hlead hstart,
    ← hfront]

end Lexer

namespace Condition

variable {t : Text}

/-- A text compiles to the tree of the phrase that its tokens are. -/
theorem compile_eq_ok_iff {condition : Condition} : compile t = .ok condition ↔
    condition.source = t ∧ ∃ kinds, Lexer.Scans t kinds ∧
      ∃ n ≤ Stack.parsing, Phrase (.chain .or) n kinds condition.tree := by
  constructor
  · intro h
    obtain ⟨tokens, htokens, h⟩ := bind_eq_ok_iff.mp h
    obtain ⟨tree, htree, h⟩ := bind_eq_ok_iff.mp h
    cases h
    obtain ⟨body, rfl, hstop⟩ := Lexer.exists_of_tokens htokens
    obtain ⟨kinds, hscans⟩ := Lexer.exists_scans_of_tokensWithin (Nat.le_refl t.length) htokens
    obtain ⟨body', htokens', hkinds⟩ := hscans.exists_tokens
    rw [htokens, Except.ok.injEq, List.append_left_inj] at htokens'
    obtain rfl := htokens'
    obtain rfl := hkinds
    exact ⟨rfl, _, hscans, Parser.phrase_of_parseWithin hstop htree⟩
  · rintro ⟨rfl, kinds, hscans, n, hn, hphrase⟩
    obtain ⟨body, htokens, rfl⟩ := hscans.exists_tokens
    have hparse : Parser.parse (body ++ [⟨.stop, condition.source.length⟩]) = .ok condition.tree :=
      (Parser.parseWithin_of_phrase _ hphrase).trans (if_pos hn)
    rw [compile, htokens, ok_bind, hparse]
    rfl

/-- White space around a text does not change the tree that it compiles to, nor whether it compiles
at all. -/
theorem compile_trim_eq_ok_iff {tree : Expr} :
    compile t.trim = .ok ⟨t.trim, tree⟩ ↔ compile t = .ok ⟨t, tree⟩ := by
  rw [compile_eq_ok_iff, compile_eq_ok_iff]
  simp only [Lexer.scans_trim_iff, true_and]

end Condition

end MockApi
