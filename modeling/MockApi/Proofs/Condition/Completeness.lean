import Mathlib.Data.List.Basic
import Mathlib.Data.Nat.Init
import MockApi.Proofs.Condition.Soundness

/-!
# The parser reads every phrase

A phrase is read in full if the tokens after it do not go on with it: no operator of a level inside
the phrase follows, and no property access. The loops are greedy, so a chain of operators cannot be
read by itself. What an induction over phrases gives for a chain is that the parser arrives, with
the tree of the chain in hand, in front of the tokens after it and may still go on with the same
level; likewise for property accesses.

The number of levels that a phrase counts is exact: with fewer levels the parser gives up as too
deep, and with as many it succeeds.
-/

namespace MockApi

/-! ## The ends of phrases -/

/-- The symbols that go on with a phrase when they follow it. -/
def PhraseKind.continuations : PhraseKind → List Symbol
  | .chain level =>
    (level :: level.tighter).flatMap (fun l ↦ l.operators.map Prod.fst) ++ [.dot, .openBracket]
  | .unary | .member => [.dot, .openBracket]
  | .primary => []

/-- A phrase of a kind ends in front of the tokens. -/
def PhraseKind.EndsBefore (kind : PhraseKind) (rest : List Token) : Prop :=
  ∀ ⦃s position tail⦄, rest = ⟨.symbol s, position⟩ :: tail → s ∉ kind.continuations

namespace PhraseKind

theorem endsBefore_symbol_iff {kind : PhraseKind} {s : Symbol} {position : Nat}
    {tail : List Token} :
    kind.EndsBefore (⟨.symbol s, position⟩ :: tail) ↔ s ∉ kind.continuations := by
  constructor
  · intro h
    exact h rfl
  · intro h s' position' tail' heq
    cases heq
    exact h

theorem endsBefore_stop {kind : PhraseKind} {position : Nat} {tail : List Token} :
    kind.EndsBefore (⟨.stop, position⟩ :: tail) := by
  intro s position' tail' heq
  cases heq

theorem mem_continuations_of_operandKind {level : Level} {s : Symbol}
    (h : s ∈ level.operandKind.continuations) : s ∈ (chain level).continuations := by
  revert h
  cases level <;> cases s <;> decide

/-- A chain that ends leaves its last operand at an end, too. -/
theorem EndsBefore.operandKind {level : Level} {rest : List Token}
    (h : (chain level).EndsBefore rest) : level.operandKind.EndsBefore rest :=
  fun _ _ _ heq hmem ↦ h heq (mem_continuations_of_operandKind hmem)

/-- Operands of a level end in front of the operators of the level. -/
theorem notMem_continuations_operandKind {level : Level} {s : Symbol} {op : Operator}
    (h : (s, op) ∈ level.operators) : s ∉ level.operandKind.continuations := by
  have hs : s ∈ level.operators.map Prod.fst := List.mem_map_of_mem h
  revert hs
  cases level <;> cases s <;> decide

theorem EndsBefore.accept?_eq_none {level : Level} {rest : List Token}
    (h : (chain level).EndsBefore rest) : Parser.accept? level.operator? rest = none := by
  rw [Option.eq_none_iff_forall_ne_some]
  rintro ⟨op, tail⟩ haccept
  obtain ⟨s, position, rfl, hop⟩ := Parser.accept?_eq_some_iff.mp haccept
  refine h rfl (List.mem_append_left _ (List.mem_flatMap.mpr ⟨level, List.mem_cons_self, ?_⟩))
  exact List.mem_map_of_mem (Level.mem_operators_iff.mpr hop)

end PhraseKind

/-- No primary and no member phrase starts with a symbol other than an opening parenthesis. -/
theorem Phrase.eq_openParen_of_head? {kind : PhraseKind} {n : Nat} {ts : List TokenKind} {e : Expr}
    (h : Phrase kind n ts e) (hkind : kind = .member ∨ kind = .primary) {s : Symbol}
    (hs : ts.head? = some (.symbol s)) : s = .openParen := by
  induction h with
  | operand | operator | sign | plain => simp at hkind
  | target _ ih => exact ih (.inr rfl) hs
  | property he ih =>
    rw [List.head?_append_of_ne_nil _ he.ne_nil] at hs
    exact ih (.inl rfl) hs
  | item he _ ih =>
    rw [List.head?_append_of_ne_nil _ he.ne_nil] at hs
    exact ih (.inl rfl) hs
  | number | text | keyword | name => simp at hs
  | parens => simpa using hs.symm

namespace Parser

/-! ## The loops without their bounds -/

/-- The loop of a level from a left operand on. -/
def chainRest (level : Level) (read : Reader) (left : Expr) : Reader := fun tokens ↦
  chainFrom level read tokens.length left tokens

/-- The loop of property accesses from a target on. -/
def memberRest (read : Reader) (target : Expr) : Reader := fun tokens ↦
  memberFrom read tokens.length target tokens

theorem chainFrom_succ {level : Level} {read : Reader} (hread : Shortens read) {steps : Nat}
    {left : Expr} {tokens : List Token} (h : tokens.length ≤ steps) :
    chainFrom level read (steps + 1) left tokens = chainFrom level read steps left tokens := by
  -- every round takes a token, so there are no more rounds than tokens
  induction steps generalizing left tokens with
  | zero =>
    rw [List.eq_nil_of_length_eq_zero (Nat.le_zero.mp h)]
    rfl
  | succ steps ih =>
    rw [chainFrom, chainFrom]
    split
    · rfl
    · rename_i op after haccept
      obtain ⟨s, position, rfl, -⟩ := accept?_eq_some_iff.mp haccept
      cases hright : read after with
      | error e => rfl
      | ok found =>
        have hlt := hread hright
        rw [List.length_cons] at h
        exact ih (by omega)

theorem chainFrom_of_length_le {level : Level} {read : Reader} (hread : Shortens read)
    {steps : Nat} {left : Expr} {tokens : List Token} (h : tokens.length ≤ steps) :
    chainFrom level read steps left tokens = chainRest level read left tokens := by
  induction steps, h using Nat.le_induction with
  | base => rfl
  | succ steps h ih => rw [chainFrom_succ hread h, ih]

theorem chainRest_of_accept?_eq_none {level : Level} {read : Reader} {left : Expr}
    {tokens : List Token} (h : accept? level.operator? tokens = none) :
    chainRest level read left tokens = .ok (left, tokens) := by
  unfold chainRest
  cases tokens with
  | nil => rfl
  | cons token tokens =>
    rw [List.length_cons, chainFrom, h]

theorem chainRest_symbol {level : Level} {read : Reader} (hread : Shortens read) {left : Expr}
    {s : Symbol} {op : Operator} (hop : level.operator? s = some op) (position : Nat)
    (tokens : List Token) :
    chainRest level read left (⟨.symbol s, position⟩ :: tokens) =
      read tokens >>= fun found ↦ chainRest level read (op.apply left found.1) found.2 := by
  have haccept : accept? level.operator? (⟨.symbol s, position⟩ :: tokens) = some (op, tokens) :=
    accept?_eq_some_iff.mpr ⟨s, position, rfl, hop⟩
  unfold chainRest
  rw [List.length_cons, chainFrom, haccept]
  dsimp only
  cases hright : read tokens with
  | error e => rfl
  | ok found => exact chainFrom_of_length_le hread (Nat.le_of_lt (hread hright))

theorem memberFrom_succ {read : Reader} (hread : Shortens read) {steps : Nat} {target : Expr}
    {tokens : List Token} (h : tokens.length ≤ steps) :
    memberFrom read (steps + 1) target tokens = memberFrom read steps target tokens := by
  induction steps generalizing target tokens with
  | zero =>
    rw [List.eq_nil_of_length_eq_zero (Nat.le_zero.mp h)]
    rfl
  | succ steps ih =>
    unfold memberFrom
    split
    · simp only [List.length_cons] at h
      exact ih (by omega)
    · rfl
    · rfl
    · rename_i opening after
      cases hkey : read after with
      | error e => rfl
      | ok found =>
        cases hclosed : expect .closeBracket found.2 with
        | error e => simp [hclosed]
        | ok closed =>
          have hlt := hread hkey
          obtain ⟨closing, hfound⟩ := expect_eq_ok_iff.mp hclosed
          rw [hfound, List.length_cons] at hlt
          rw [List.length_cons] at h
          simpa [hclosed] using ih (by omega)
    · rfl

theorem memberFrom_of_length_le {read : Reader} (hread : Shortens read) {steps : Nat}
    {target : Expr} {tokens : List Token} (h : tokens.length ≤ steps) :
    memberFrom read steps target tokens = memberRest read target tokens := by
  induction steps, h using Nat.le_induction with
  | base => rfl
  | succ steps h ih => rw [memberFrom_succ hread h, ih]

theorem memberRest_of_endsBefore {read : Reader} {target : Expr} {tokens : List Token}
    (h : PhraseKind.member.EndsBefore tokens) :
    memberRest read target tokens = .ok (target, tokens) := by
  unfold memberRest
  cases tokens with
  | nil => rfl
  | cons token tokens =>
    rw [List.length_cons]
    unfold memberFrom
    split
    · rename_i heq
      exact absurd (h heq) (by decide)
    · rename_i heq
      exact absurd (h heq) (by decide)
    · rename_i heq
      exact absurd (h heq) (by decide)
    · rename_i heq
      exact absurd (h heq) (by decide)
    · rfl

theorem memberRest_dot {read : Reader} (hread : Shortens read) {target : Expr} {name : Text}
    (dot position : Nat) (tokens : List Token) :
    memberRest read target (⟨.symbol .dot, dot⟩ :: ⟨.ident name, position⟩ :: tokens) =
      memberRest read (.member target (.literal (.text name))) tokens :=
  memberFrom_of_length_le hread (Nat.le_succ _)

theorem memberRest_openBracket {read : Reader} (hread : Shortens read) {target key : Expr}
    (opening closing : Nat) {tokens rest : List Token}
    (hkey : read tokens = .ok (key, ⟨.symbol .closeBracket, closing⟩ :: rest)) :
    memberRest read target (⟨.symbol .openBracket, opening⟩ :: tokens) =
      memberRest read (.member target key) rest := by
  have hlt := hread hkey
  rw [List.length_cons] at hlt
  have hclosed : expect .closeBracket (⟨.symbol .closeBracket, closing⟩ :: rest) = .ok rest :=
    expect_eq_ok_iff.mpr ⟨closing, rfl⟩
  unfold memberRest
  rw [List.length_cons, memberFrom]
  simp only [hkey, ok_bind, hclosed]
  exact memberFrom_of_length_le hread (by omega)

/-! ## Tokens by their kinds -/

theorem map_kind_eq_cons_iff {tokens : List Token} {k : TokenKind} {ks : List TokenKind} :
    tokens.map Token.kind = k :: ks ↔
      ∃ position tail, tokens = ⟨k, position⟩ :: tail ∧ tail.map Token.kind = ks := by
  rw [List.map_eq_cons_iff]
  constructor
  · rintro ⟨⟨_, position⟩, tail, rfl, rfl, htail⟩
    exact ⟨position, tail, rfl, htail⟩
  · rintro ⟨position, tail, rfl, htail⟩
    exact ⟨_, tail, rfl, rfl, htail⟩

theorem map_kind_eq_singleton_iff {tokens : List Token} {k : TokenKind} :
    tokens.map Token.kind = [k] ↔ ∃ position, tokens = [⟨k, position⟩] := by
  simp only [map_kind_eq_cons_iff, List.map_eq_nil_iff]
  constructor
  · rintro ⟨position, tail, rfl, rfl⟩
    exact ⟨position, rfl⟩
  · rintro ⟨position, rfl⟩
    exact ⟨position, [], rfl, rfl⟩

theorem map_kind_eq_append_cons_iff {tokens : List Token} {k : TokenKind}
    {left right : List TokenKind} :
    tokens.map Token.kind = left ++ k :: right ↔
      ∃ before position after, tokens = before ++ ⟨k, position⟩ :: after ∧
        before.map Token.kind = left ∧ after.map Token.kind = right := by
  rw [List.map_eq_append_iff]
  constructor
  · rintro ⟨before, tail, rfl, hleft, htail⟩
    obtain ⟨position, after, rfl, hright⟩ := map_kind_eq_cons_iff.mp htail
    exact ⟨before, position, after, rfl, hleft, hright⟩
  · rintro ⟨before, position, after, rfl, hleft, hright⟩
    exact ⟨before, _, rfl, hleft, map_kind_eq_cons_iff.mpr ⟨position, after, rfl, hright⟩⟩

/-! ## The induction over phrases -/

theorem lookup_keywords {word : Text} {value : Literal} (h : (word, value) ∈ Literal.keywords) :
    Literal.keywords.lookup word = some value := by
  simp only [Literal.keywords, List.mem_cons, Prod.mk.injEq, List.not_mem_nil, or_false] at h
  rcases h with ⟨rfl, rfl⟩ | ⟨rfl, rfl⟩ | ⟨rfl, rfl⟩ | ⟨rfl, rfl⟩ <;> rfl

theorem lookup_keywords_spelling (name : BoundName) :
    Literal.keywords.lookup name.spelling = none := by
  cases name <;> rfl

/-- What the parser does with a phrase in front of other tokens. It gives up if the phrase needs
more levels of nesting than there are. Otherwise it reads a unary phrase or a primary in full, and
comes to the end of a chain or a member phrase with their loops still running. -/
def Completes : PhraseKind → Nat → List TokenKind → Expr → Prop
  | .chain level, n, ts, e => ∀ ⦃levels tokens rest⦄, tokens.map Token.kind = ts →
    level.operandKind.EndsBefore rest →
    chain level (operandReader level (operand levels)) (tokens ++ rest) =
      if n ≤ levels then chainRest level (operandReader level (operand levels)) e rest
      else .error .tooDeep
  | .unary, n, ts, e => ∀ ⦃levels tokens rest⦄, tokens.map Token.kind = ts →
    PhraseKind.unary.EndsBefore rest →
    operand levels (tokens ++ rest) = if n ≤ levels then .ok (e, rest) else .error .tooDeep
  | .member, n, ts, e => ∀ ⦃levels tokens rest⦄, tokens.map Token.kind = ts →
    member (expression (operand levels)) (tokens ++ rest) =
      if n ≤ levels + 1 then memberRest (expression (operand levels)) e rest
      else .error .tooDeep
  | .primary, n, ts, e => ∀ ⦃levels tokens rest⦄, tokens.map Token.kind = ts →
    primary (expression (operand levels)) (tokens ++ rest) =
      if n ≤ levels + 1 then .ok (e, rest) else .error .tooDeep

namespace Completes

variable {level : Level} {n levels : Nat} {ts : List TokenKind} {e : Expr}
  {tokens rest : List Token}

/-- At its end, a chain is read in full. -/
theorem chain_eq (level : Level) (h : Completes (.chain level) n ts e)
    (htokens : tokens.map Token.kind = ts) (hends : (PhraseKind.chain level).EndsBefore rest) :
    chain level (operandReader level (operand levels)) (tokens ++ rest) =
      if n ≤ levels then .ok (e, rest) else .error .tooDeep := by
  rw [h htokens hends.operandKind, chainRest_of_accept?_eq_none hends.accept?_eq_none]

theorem operandReader_eq (h : Completes level.operandKind n ts e)
    (htokens : tokens.map Token.kind = ts) (hends : level.operandKind.EndsBefore rest) :
    operandReader level (operand levels) (tokens ++ rest) =
      if n ≤ levels then .ok (e, rest) else .error .tooDeep := by
  cases level
  · exact chain_eq .and h htokens hends
  · exact chain_eq .equality h htokens hends
  · exact chain_eq .relational h htokens hends
  · exact chain_eq .additive h htokens hends
  · exact chain_eq .multiplicative h htokens hends
  · exact h htokens hends

/-- An expression is read in full in front of a symbol that no operator is. -/
theorem expression_eq {s : Symbol} {position : Nat} (h : Completes (.chain .or) n ts e)
    (htokens : tokens.map Token.kind = ts)
    (hs : s ∉ (PhraseKind.chain .or).continuations) :
    expression (operand levels) (tokens ++ ⟨.symbol s, position⟩ :: rest) =
      if n ≤ levels then .ok (e, ⟨.symbol s, position⟩ :: rest) else .error .tooDeep :=
  h.chain_eq .or htokens (PhraseKind.endsBefore_symbol_iff.mpr hs)

end Completes

/-- **Completeness.** Every phrase is read, if there are levels enough. -/
theorem completes {kind : PhraseKind} {n : Nat} {ts : List TokenKind} {e : Expr}
    (h : Phrase kind n ts e) : Completes kind n ts e := by
  have hshorten (levels : Nat) : Shortens (expression (operand levels)) :=
    (readsPhrases_operand levels).expression.shortens
  induction h with
  | operand _ ih =>
    intro levels tokens rest htokens hends
    unfold chain
    rw [ih.operandReader_eq htokens hends]
    split <;> rfl
  | @operator level s op m n left right l r hop _ _ ihl ihr =>
    intro levels tokens rest htokens hends
    obtain ⟨tl, position, tr, rfl, hleft, hright⟩ := map_kind_eq_append_cons_iff.mp htokens
    -- the left chain brings the loop to the operator, where it goes on with the right operand
    have hread : Shortens (operandReader level (operand levels)) :=
      ((readsPhrases_operand levels).operandReader level).shortens
    have hstart : level.operandKind.EndsBefore (⟨.symbol s, position⟩ :: (tr ++ rest)) :=
      PhraseKind.endsBefore_symbol_iff.mpr (PhraseKind.notMem_continuations_operandKind hop)
    rw [List.append_assoc, List.cons_append, ihl hleft hstart,
      chainRest_symbol hread (Level.mem_operators_iff.mp hop), ihr.operandReader_eq hright hends]
    by_cases hm : m ≤ levels
    · rw [if_pos hm]
      by_cases hn : n ≤ levels
      · rw [if_pos hn, if_pos (Nat.max_le.mpr ⟨hm, hn⟩), ok_bind]
      · rw [if_neg hn, if_neg (by omega), error_bind]
    · rw [if_neg hm, if_neg (by omega)]
  | @sign s op n ts e hop _ ih =>
    intro levels tokens rest htokens hends
    obtain ⟨position, inner, rfl, hinner⟩ := map_kind_eq_cons_iff.mp htokens
    cases levels with
    | zero => rfl
    | succ levels =>
      have haccept : accept? UnaryOp.ofSymbol? (⟨.symbol s, position⟩ :: (inner ++ rest))
          = some (op, inner ++ rest) :=
        accept?_eq_some_iff.mpr ⟨s, position, rfl, UnaryOp.mem_symbols_iff.mp hop⟩
      rw [List.cons_append, operand, haccept]
      dsimp only
      rw [ih hinner hends]
      by_cases hn : n ≤ levels
      · simp [hn]
      · simp [hn]
  | @plain n ts e he ih =>
    intro levels tokens rest htokens hends
    cases levels with
    | zero => rw [if_neg (by have := he.nesting_pos; omega)]; rfl
    | succ levels =>
      -- the only symbol that a member phrase starts with is a parenthesis, and that is no sign
      have haccept : accept? UnaryOp.ofSymbol? (tokens ++ rest) = none := by
        rw [Option.eq_none_iff_forall_ne_some]
        rintro ⟨op, tail⟩ hsome
        obtain ⟨s, position, heq, hop⟩ := accept?_eq_some_iff.mp hsome
        have hhead : ts.head? = some (.symbol s) := by
          have hne : tokens ≠ [] := fun hnil ↦ he.ne_nil (by rw [← htokens, hnil]; rfl)
          have hhead := congrArg (Option.map Token.kind ∘ List.head?) heq
          rw [Function.comp_apply, List.head?_append_of_ne_nil _ hne] at hhead
          rw [← htokens, List.head?_map, hhead]
          rfl
        rw [he.eq_openParen_of_head? (.inl rfl) hhead] at hop
        cases hop
      rw [operand, haccept]
      dsimp only
      rw [ih htokens, memberRest_of_endsBefore hends]
  | target _ ih =>
    intro levels tokens rest htokens
    unfold member
    rw [ih htokens]
    split <;> rfl
  | @property n ts e name _ ih =>
    intro levels tokens rest htokens
    obtain ⟨tl, dot, tail, rfl, htarget, hname⟩ := map_kind_eq_append_cons_iff.mp htokens
    obtain ⟨position, rfl⟩ := map_kind_eq_singleton_iff.mp hname
    rw [List.append_assoc, ih htarget]
    exact if_congr Iff.rfl (memberRest_dot (hshorten levels) dot position rest) rfl
  | @item m n ts key e k _ _ ihe ihk =>
    intro levels tokens rest htokens
    obtain ⟨tl, opening, tail, rfl, htarget, htail⟩ := map_kind_eq_append_cons_iff.mp htokens
    obtain ⟨tk, closing, after, rfl, hkey, hafter⟩ := map_kind_eq_append_cons_iff.mp htail
    obtain rfl := List.map_eq_nil_iff.mp hafter
    have hread : expression (operand levels) (tk ++ ⟨.symbol .closeBracket, closing⟩ :: rest) =
        if n ≤ levels then .ok (k, ⟨.symbol .closeBracket, closing⟩ :: rest)
        else .error .tooDeep := ihk.expression_eq hkey (by decide)
    rw [List.append_assoc, List.cons_append, List.append_assoc, ihe htarget]
    by_cases hn : n ≤ levels
    · rw [if_pos hn] at hread
      rw [List.cons_append, List.nil_append,
        memberRest_openBracket (hshorten levels) opening closing hread]
      exact if_congr (by omega) rfl rfl
    · -- the key gives up, and the loop with it, whatever the target needs
      rw [if_neg hn] at hread
      have hfail : memberRest (expression (operand levels)) e
          (⟨.symbol .openBracket, opening⟩ :: (tk ++ ⟨.symbol .closeBracket, closing⟩ :: rest))
          = .error .tooDeep := by
        unfold memberRest
        rw [List.length_cons]
        unfold memberFrom
        simp [hread]
      rw [List.cons_append, List.nil_append, hfail, ite_self, if_neg (by omega)]
  | number | text =>
    intro levels tokens rest htokens
    obtain ⟨position, rfl⟩ := map_kind_eq_singleton_iff.mp htokens
    rw [if_pos (by omega)]
    rfl
  | keyword hword =>
    intro levels tokens rest htokens
    obtain ⟨position, rfl⟩ := map_kind_eq_singleton_iff.mp htokens
    rw [if_pos (by omega), List.cons_append, List.nil_append, primary, lookup_keywords hword]
  | @name name =>
    intro levels tokens rest htokens
    obtain ⟨position, rfl⟩ := map_kind_eq_singleton_iff.mp htokens
    rw [if_pos (by omega), List.cons_append, List.nil_append, primary,
      lookup_keywords_spelling name, BoundName.ofSpelling?_spelling name]
  | @parens n ts e _ ih =>
    intro levels tokens rest htokens
    obtain ⟨opening, tail, rfl, htail⟩ := map_kind_eq_cons_iff.mp htokens
    obtain ⟨inner, closing, after, rfl, hinner, hafter⟩ := map_kind_eq_append_cons_iff.mp htail
    obtain rfl := List.map_eq_nil_iff.mp hafter
    rw [List.cons_append, List.append_assoc, List.cons_append, List.nil_append, primary,
      ih.expression_eq hinner (s := .closeParen) (by decide)]
    by_cases hn : n ≤ levels
    · simp [hn, expect]
    · simp [hn]

end Parser

end MockApi
