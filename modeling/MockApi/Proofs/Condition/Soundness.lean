import MockApi.Proofs.Condition.Grammar
import MockApi.Proofs.Outcome

/-!
# The parser reads phrases

Whatever the parser takes off a list of tokens is a phrase of the grammar, and the tree it gives is
the tree of that phrase. The levels share one lemma, `ReadsPhrases.chain`, just as they share one
parsing function; the loops are followed by induction on their bound with the tree built so far as
the tree of a phrase on the left.
-/

namespace MockApi.Parser

/-- A function that takes a phrase off the front of the tokens. -/
abbrev Reader := List Token → Except ConditionError (Expr × List Token)

/-- The reader of what stands between the operators of a level, over a reader of unary phrases. -/
def operandReader (level : Level) (read : Reader) : Reader := level.tighter.foldr chain read

/-- A reader takes phrases of a kind only, nested no more than `levels` deep. -/
def ReadsPhrases (kind : PhraseKind) (levels : Nat) (read : Reader) : Prop :=
  ∀ ⦃tokens e rest⦄, read tokens = .ok (e, rest) →
    ∃ n ts, n ≤ levels ∧ tokens = ts ++ rest ∧ Phrase kind n (ts.map Token.kind) e

theorem accept?_eq_some_iff {α : Type} {meaning : Symbol → Option α} {tokens rest : List Token}
    {a : α} : accept? meaning tokens = some (a, rest) ↔
      ∃ s position, tokens = ⟨.symbol s, position⟩ :: rest ∧ meaning s = some a := by
  unfold accept?
  split
  · simp only [Option.map_eq_some_iff, Prod.mk.injEq]
    constructor
    · rintro ⟨a', ha, rfl, rfl⟩
      exact ⟨_, _, rfl, ha⟩
    · rintro ⟨s, position, htokens, ha⟩
      cases htokens
      exact ⟨a, ha, rfl, rfl⟩
  · rename_i hne
    simp only [reduceCtorEq, false_iff]
    rintro ⟨s, position, rfl, -⟩
    exact hne _ _ _ rfl

theorem expect_eq_ok_iff {s : Symbol} {tokens rest : List Token} :
    expect s tokens = .ok rest ↔ ∃ position, tokens = ⟨.symbol s, position⟩ :: rest := by
  cases tokens with
  | nil => simp [expect]
  | cons token tokens =>
    obtain ⟨kind, position⟩ := token
    by_cases h : kind = .symbol s
    · simp [expect, h]
    · simp [expect, h]

/-! ## Chains of operators -/

/-- The loop of a level extends a chain on its left to a longer one. -/
theorem phrase_of_chainFrom {level : Level} {levels : Nat} {read : Reader}
    (hread : ReadsPhrases level.operandKind levels read) {steps n : Nat} {left : Expr}
    {before tokens rest : List Token} {e : Expr} (hn : n ≤ levels)
    (hleft : Phrase (.chain level) n (before.map Token.kind) left)
    (h : chainFrom level read steps left tokens = .ok (e, rest)) :
    ∃ m ts, m ≤ levels ∧ tokens = ts ++ rest ∧
      Phrase (.chain level) m ((before ++ ts).map Token.kind) e := by
  -- the tree built so far is that of the chain `before`, which grows from round to round
  induction steps generalizing n left before tokens with
  | zero =>
    cases h
    exact ⟨n, [], hn, rfl, by rwa [List.append_nil]⟩
  | succ steps ih =>
    unfold chainFrom at h
    split at h
    · cases h
      exact ⟨n, [], hn, rfl, by rwa [List.append_nil]⟩
    · rename_i op after haccept
      obtain ⟨s, position, rfl, hop⟩ := accept?_eq_some_iff.mp haccept
      obtain ⟨⟨right, after'⟩, hright, hloop⟩ := bind_eq_ok_iff.mp h
      obtain ⟨k, ts, hk, rfl, hphrase⟩ := hread hright
      have hchain : Phrase (.chain level) (max n k)
          ((before ++ ⟨.symbol s, position⟩ :: ts).map Token.kind) (op.apply left right) := by
        rw [List.map_append]
        exact .operator (Level.mem_operators_iff.mpr hop) hleft hphrase
      obtain ⟨m, ts', hm, rfl, he⟩ := ih (by omega) hchain hloop
      exact ⟨m, ⟨.symbol s, position⟩ :: ts ++ ts', hm, by simp, by simpa using he⟩

theorem ReadsPhrases.chain (level : Level) {levels : Nat} {read : Reader}
    (hread : ReadsPhrases level.operandKind levels read) :
    ReadsPhrases (.chain level) levels (Parser.chain level read) := by
  intro tokens e rest h
  obtain ⟨⟨left, after⟩, hleft, hloop⟩ := bind_eq_ok_iff.mp h
  obtain ⟨n, ts, hn, rfl, hphrase⟩ := hread hleft
  obtain ⟨m, ts', hm, rfl, he⟩ := phrase_of_chainFrom hread hn (.operand hphrase) hloop
  exact ⟨m, ts ++ ts', hm, (List.append_assoc ..).symm, he⟩

theorem ReadsPhrases.operandReader {levels : Nat} {read : Reader}
    (hread : ReadsPhrases .unary levels read) (level : Level) :
    ReadsPhrases level.operandKind levels (Parser.operandReader level read) := by
  have hmultiplicative := ReadsPhrases.chain .multiplicative hread
  have hadditive := ReadsPhrases.chain .additive hmultiplicative
  have hrelational := ReadsPhrases.chain .relational hadditive
  have hequality := ReadsPhrases.chain .equality hrelational
  have hand := ReadsPhrases.chain .and hequality
  cases level
  · exact hand
  · exact hequality
  · exact hrelational
  · exact hadditive
  · exact hmultiplicative
  · exact hread

theorem ReadsPhrases.expression {levels : Nat} {read : Reader}
    (hread : ReadsPhrases .unary levels read) :
    ReadsPhrases (.chain .or) levels (Parser.expression read) :=
  .chain .or (hread.operandReader .or)

/-! ## Primaries and property accesses -/

theorem eq_spelling_of_ofSpelling? {t : Text} {name : BoundName}
    (h : BoundName.ofSpelling? t = some name) : t = name.spelling := by
  have hfound := List.find?_some h
  simpa [eq_comm] using hfound

theorem ReadsPhrases.primary {levels : Nat} {read : Reader}
    (hread : ReadsPhrases (.chain .or) levels read) :
    ReadsPhrases .primary (levels + 1) (Parser.primary read) := by
  intro tokens e rest h
  unfold Parser.primary at h
  split at h
  · cases h
    exact ⟨1, [_], by omega, rfl, .number⟩
  · cases h
    exact ⟨1, [_], by omega, rfl, .text⟩
  · rename_i word position after
    cases hword : Literal.keywords.lookup word with
    | some value =>
      simp only [hword] at h
      cases h
      obtain ⟨front, back, hkeywords, -⟩ := List.lookup_eq_some_iff.mp hword
      exact ⟨1, [_], by omega, rfl, .keyword (by simp [hkeywords])⟩
    | none =>
      cases hname : BoundName.ofSpelling? word with
      | some name =>
        simp only [hword, hname] at h
        cases h
        rw [eq_spelling_of_ofSpelling? hname]
        exact ⟨1, [_], by omega, rfl, .name⟩
      | none =>
        simp only [hword, hname] at h
        cases h
  · rename_i opening after
    obtain ⟨⟨inner, after'⟩, hinner, hparen⟩ := bind_eq_ok_iff.mp h
    obtain ⟨closed, hclosed, hresult⟩ := bind_eq_ok_iff.mp hparen
    cases hresult
    obtain ⟨n, ts, hn, rfl, hphrase⟩ := hread hinner
    obtain ⟨closing, rfl⟩ := expect_eq_ok_iff.mp hclosed
    refine ⟨n + 1, ⟨.symbol .openParen, opening⟩ :: (ts ++ [⟨.symbol .closeParen, closing⟩]),
      by omega, by simp, ?_⟩
    simpa using Phrase.parens hphrase
  · cases h
  · cases h
  · cases h

/-- The loop of property accesses extends a target on its left. -/
theorem phrase_of_memberFrom {levels : Nat} {read : Reader}
    (hread : ReadsPhrases (.chain .or) levels read) {steps n : Nat} {target : Expr}
    {before tokens rest : List Token} {e : Expr} (hn : n ≤ levels + 1)
    (htarget : Phrase .member n (before.map Token.kind) target)
    (h : memberFrom read steps target tokens = .ok (e, rest)) :
    ∃ m ts, m ≤ levels + 1 ∧ tokens = ts ++ rest ∧
      Phrase .member m ((before ++ ts).map Token.kind) e := by
  induction steps generalizing n target before tokens with
  | zero =>
    cases h
    exact ⟨n, [], hn, rfl, by rwa [List.append_nil]⟩
  | succ steps ih =>
    unfold memberFrom at h
    split at h
    · rename_i dot name position after
      have hmember : Phrase .member n
          ((before ++ [(⟨.symbol .dot, dot⟩ : Token), ⟨.ident name, position⟩]).map Token.kind)
          (.member target (.literal (.text name))) := by
        rw [List.map_append]
        exact .property htarget
      obtain ⟨m, ts, hm, rfl, he⟩ := ih hn hmember h
      exact ⟨m, ⟨.symbol .dot, dot⟩ :: ⟨.ident name, position⟩ :: ts, hm, rfl, by simpa using he⟩
    · cases h
    · cases h
    · rename_i opening after
      obtain ⟨⟨key, after'⟩, hkey, hbracket⟩ := bind_eq_ok_iff.mp h
      obtain ⟨closed, hclosed, hloop⟩ := bind_eq_ok_iff.mp hbracket
      obtain ⟨k, ts, hk, rfl, hphrase⟩ := hread hkey
      obtain ⟨closing, rfl⟩ := expect_eq_ok_iff.mp hclosed
      have hmember : Phrase .member (max n (k + 1))
          ((before ++ (⟨.symbol .openBracket, opening⟩ : Token)
            :: (ts ++ [⟨.symbol .closeBracket, closing⟩])).map Token.kind)
          (.member target key) := by
        simpa using Phrase.item htarget hphrase
      obtain ⟨m, ts', hm, rfl, he⟩ := ih (by omega) hmember hloop
      exact ⟨m, ⟨.symbol .openBracket, opening⟩ :: ts ++ ⟨.symbol .closeBracket, closing⟩ :: ts',
        hm, by simp, by simpa using he⟩
    · cases h
      exact ⟨n, [], hn, rfl, by rwa [List.append_nil]⟩

theorem ReadsPhrases.member {levels : Nat} {read : Reader}
    (hread : ReadsPhrases (.chain .or) levels read) :
    ReadsPhrases .member (levels + 1) (Parser.member read) := by
  intro tokens e rest h
  obtain ⟨⟨target, after⟩, htarget, hloop⟩ := bind_eq_ok_iff.mp h
  obtain ⟨n, ts, hn, rfl, hphrase⟩ := hread.primary htarget
  obtain ⟨m, ts', hm, rfl, he⟩ := phrase_of_memberFrom hread hn (.target hphrase) hloop
  exact ⟨m, ts ++ ts', hm, (List.append_assoc ..).symm, he⟩

/-! ## Operands -/

/-- **Soundness.** What the parser reads is a phrase of the grammar. -/
theorem readsPhrases_operand (levels : Nat) : ReadsPhrases .unary levels (operand levels) := by
  induction levels with
  | zero =>
    intro tokens e rest h
    cases h
  | succ levels ih =>
    -- signs, parentheses and brackets all pass the reader with one level less to what is inside
    intro tokens e rest h
    unfold operand at h
    split at h
    · rename_i op after haccept
      obtain ⟨s, position, rfl, hop⟩ := accept?_eq_some_iff.mp haccept
      obtain ⟨⟨inner, after'⟩, hinner, hresult⟩ := bind_eq_ok_iff.mp h
      cases hresult
      obtain ⟨n, ts, hn, rfl, hphrase⟩ := ih hinner
      exact ⟨n + 1, ⟨.symbol s, position⟩ :: ts, by omega, rfl,
        .sign (UnaryOp.mem_symbols_iff.mpr hop) hphrase⟩
    · obtain ⟨n, ts, hn, rfl, hphrase⟩ := ih.expression.member h
      exact ⟨n, ts, hn, rfl, .plain hphrase⟩

/-! ## Progress -/

/-- What a reader leaves is shorter than what it was given. -/
def Shortens (read : Reader) : Prop :=
  ∀ ⦃tokens e rest⦄, read tokens = .ok (e, rest) → rest.length < tokens.length

theorem ReadsPhrases.shortens {kind : PhraseKind} {levels : Nat} {read : Reader}
    (hread : ReadsPhrases kind levels read) : Shortens read := by
  intro tokens e rest h
  obtain ⟨n, ts, -, rfl, hphrase⟩ := hread h
  have hts : ts ≠ [] := fun hnil ↦ hphrase.ne_nil (by rw [hnil]; rfl)
  have hpos := List.length_pos_iff.mpr hts
  rw [List.length_append]
  omega

end MockApi.Parser
