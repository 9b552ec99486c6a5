import MockApi.Proofs.Condition.Printing
import MockApi.Proofs.Guarded.Fault

/-!
# Parsing with guards

The parser once more, on a list of tokens and an index into it. Every look at a token is guarded,
the loops have a bound of their own, and the tree keeps operators and names by their spellings, as
they stand in the condition. On tokens that end with the closing one the index stays in range: only
tokens of other kinds are passed over.
-/

namespace MockApi

variable {stack : Stack}

namespace Guarded

/-- A condition tree with the spellings of its operators and names. -/
inductive SpelledExpr
  /-- A literal. -/
  | literal (value : Literal)
  /-- A name. -/
  | name (spelling : Text)
  /-- A property of a target. -/
  | member (target key : SpelledExpr)
  /-- An operator with one operand. -/
  | unary (op : Text) (operand : SpelledExpr)
  /-- An operator that may leave its right operand alone. -/
  | logical (op : Text) (left right : SpelledExpr)
  /-- An operator that works on both operands. -/
  | binary (op : Text) (left right : SpelledExpr)
deriving DecidableEq, Repr

end Guarded

open Guarded (SpelledExpr)

/-- A tree with its operators and names spelled out. -/
def Expr.spelled : Expr → SpelledExpr
  | literal value => .literal value
  | name n => .name n.spelling
  | member target key => .member target.spelled key.spelled
  | unary op operand => .unary op.symbol.spelling operand.spelled
  | logical op left right =>
    .logical (Operator.logical op).symbol.spelling left.spelled right.spelled
  | binary op left right => .binary (Operator.binary op).symbol.spelling left.spelled right.spelled

namespace Guarded

/-! ## Parsing -/

section Parsing

variable (tokens : List Token)

/-- The token at an index. -/
def current (i : Nat) : Run ConditionError Token := itemAt tokens .noToken i

/-- Passes over one of some symbols, if the token at the index is one. -/
def accept (symbols : List Symbol) (i : Nat) : Run ConditionError (Option (Symbol × Nat)) := do
  match (← current tokens i).kind with
  | .symbol s => return if s ∈ symbols then some (s, i + 1) else none
  | _ => return none

/-- Passes over a symbol that has to be there. -/
def expect (s : Symbol) (i : Nat) : Run ConditionError Nat := do
  match ← accept tokens [s] i with
  | some (_, i) => return i
  | none => .error (.declared (.expectedSymbol s (← current tokens i).position))

/-- A function that reads a tree from an index on and gives the index after it. -/
abbrev Reader := Nat → Run ConditionError (SpelledExpr × Nat)

/-- The node of an operator of a level. -/
def node : Level → Text → SpelledExpr → SpelledExpr → SpelledExpr
  | .or, op, left, right | .and, op, left, right => .logical op left right
  | _, op, left, right => .binary op left right

/-- Operators of a level with operands behind a left operand, fewer than `steps` of them. -/
def chainFrom (level : Level) (operand : Reader) : Nat → SpelledExpr → Reader
  | 0, _, _ => .error (.fault .endless)
  | steps + 1, left, i => do
    match ← accept tokens (level.operators.map Prod.fst) i with
    | none => return (left, i)
    | some (s, i) =>
      let (right, i) ← operand i
      chainFrom level operand steps (node level s.spelling left right) i

/-- Operands with operators of a level between them. -/
def chain (level : Level) (operand : Reader) : Reader := fun i ↦ do
  let (left, i) ← operand i
  chainFrom tokens level operand tokens.length left i

/-- An expression over operands: the levels one inside the other. -/
def expression (operand : Reader) : Reader := Level.all.foldr (chain tokens) operand

/-- A literal, a name, or an expression between parentheses. -/
def primary (expression : Reader) : Reader := fun i ↦ do
  let token ← current tokens i
  match token.kind with
  | .number value => return (.literal (TokenKind.numberLiteral value), i + 1)
  | .text t => return (.literal (.text t), i + 1)
  | .ident name =>
    match Literal.keywords.lookup name with
    | some literal => return (.literal literal, i + 1)
    | none =>
      if name ∈ BoundName.all.map BoundName.spelling then return (.name name, i + 1)
      else .error (.declared (.notDefined name))
  | .symbol s =>
    if s = .openParen then
      let (e, i) ← expression (i + 1)
      return (e, ← expect tokens .closeParen i)
    else .error (.declared (.unexpectedToken token))
  | .stop => .error (.declared .unexpectedEnd)

/-- Property accesses behind a target, fewer than `steps` of them. -/
def memberFrom (expression : Reader) : Nat → SpelledExpr → Reader
  | 0, _, _ => .error (.fault .endless)
  | steps + 1, target, i => do
    match ← accept tokens [.dot] i with
    | some (_, i) =>
      let token ← current tokens i
      match token.kind with
      | .ident name => memberFrom expression steps (.member target (.literal (.text name))) (i + 1)
      | _ => .error (.declared (.expectedPropertyName token.position))
    | none =>
      match ← accept tokens [.openBracket] i with
      | some (_, i) =>
        let (key, i) ← expression i
        memberFrom expression steps (.member target key) (← expect tokens .closeBracket i)
      | none => return (target, i)

/-- A primary with property accesses. -/
def member (expression : Reader) : Reader := fun i ↦ do
  let (target, i) ← primary tokens expression i
  memberFrom tokens expression tokens.length target i

/-- An operand with unary operators in front, nested no more than `levels` deep. -/
def operand : Nat → Reader
  | 0, _ => .error (.declared .tooDeep)
  | levels + 1, i => do
    match ← accept tokens (UnaryOp.symbols.map Prod.fst) i with
    | some (s, i) =>
      let (e, i) ← operand levels i
      return (.unary s.spelling e, i)
    | none => member tokens (expression tokens (operand levels)) i

/-- The tree of all the tokens up to the closing one. -/
def parse [Stack] : Run ConditionError SpelledExpr := do
  let (e, i) ← expression tokens (operand tokens Stack.parsing) 0
  let token ← current tokens i
  if token.kind = .stop then return e else .error (.declared (.unexpectedToken token))

end Parsing

/-! ## Indices and what is left of the tokens -/

variable {tokens : List Token} {i : Nat}

/-- Tokens that end with the closing one. -/
def Closed (tokens : List Token) : Prop := ∃ body position, tokens = body ++ [⟨.stop, position⟩]

theorem exists_drop_eq_cons (hi : i < tokens.length) :
    ∃ token rest, tokens.drop i = token :: rest :=
  ⟨tokens[i], tokens.drop (i + 1), List.drop_eq_getElem_cons hi⟩

/-- Only the closing token is the last one. -/
theorem Closed.succ_lt_length (h : Closed tokens) {token : Token} {rest : List Token}
    (hdrop : tokens.drop i = token :: rest) (hkind : token.kind ≠ .stop) :
    i + 1 < tokens.length := by
  obtain ⟨body, position, rfl⟩ := h
  have hlt := lt_length_of_drop hdrop
  rw [List.length_append, List.length_singleton] at hlt ⊢
  refine Nat.succ_lt_succ (Nat.lt_of_le_of_ne (Nat.le_of_lt_succ hlt) ?_)
  rintro rfl
  rw [List.drop_left] at hdrop
  cases hdrop
  exact hkind rfl

/-- A guarded reading follows one without guards: it comes to the same tree and to the index of what
is left, which is in range, or to the same error. -/
inductive Follows (tokens : List Token) (start : Nat) :
    Except ConditionError (Expr × List Token) → Run ConditionError (SpelledExpr × Nat) → Prop
  /-- Both come to an error. -/
  | error (error : ConditionError) : Follows tokens start (.error error) (.error (.declared error))
  /-- Both come to a tree. -/
  | ok (e : Expr) {i : Nat} (hle : start ≤ i) (hlt : i < tokens.length) :
    Follows tokens start (.ok (e, tokens.drop i)) (.ok (e.spelled, i))

/-- A guarded reader follows one without guards from every index in range. -/
def Simulates (tokens : List Token) (read : Parser.Reader) (guarded : Reader) : Prop :=
  ∀ i < tokens.length, Follows tokens i (read (tokens.drop i)) (guarded i)

theorem Follows.mono {start start' : Nat} {x : Except ConditionError (Expr × List Token)}
    {y : Run ConditionError (SpelledExpr × Nat)} (h : Follows tokens start x y)
    (hle : start' ≤ start) : Follows tokens start' x y := by
  cases h with
  | error error => exact .error error
  | ok e hle' hlt => exact .ok e (Nat.le_trans hle hle') hlt

theorem Follows.bind {start : Nat} {x : Except ConditionError (Expr × List Token)}
    {y : Run ConditionError (SpelledExpr × Nat)}
    {f : Expr × List Token → Except ConditionError (Expr × List Token)}
    {g : SpelledExpr × Nat → Run ConditionError (SpelledExpr × Nat)} (h : Follows tokens start x y)
    (hnext : ∀ e i, start ≤ i → i < tokens.length →
      Follows tokens i (f (e, tokens.drop i)) (g (e.spelled, i))) :
    Follows tokens start (x >>= f) (y >>= g) := by
  cases h with
  | error error => exact .error error
  | ok e hle hlt => exact (hnext e _ hle hlt).mono hle

/-! ## Passing over symbols -/

section Token

variable {kind : TokenKind} {s : Symbol} {position : Nat} {rest : List Token}

theorem current_of_drop (hdrop : tokens.drop i = ⟨kind, position⟩ :: rest) :
    current tokens i = .ok ⟨kind, position⟩ := itemAt_of_drop hdrop _

theorem accept_of_symbol (hdrop : tokens.drop i = ⟨.symbol s, position⟩ :: rest)
    (symbols : List Symbol) :
    accept tokens symbols i = .ok (if s ∈ symbols then some (s, i + 1) else none) := by
  rw [accept, current_of_drop hdrop]
  rfl

theorem accept_of_ne (hdrop : tokens.drop i = ⟨kind, position⟩ :: rest)
    (hkind : ∀ s, kind ≠ .symbol s) (symbols : List Symbol) :
    accept tokens symbols i = .ok none := by
  rw [accept, current_of_drop hdrop]
  match kind with
  | .symbol s => exact absurd rfl (hkind s)
  | .number _ | .text _ | .ident _ | .stop => rfl

theorem accept_eq_none (hdrop : tokens.drop i = ⟨kind, position⟩ :: rest)
    (hkind : kind ≠ .symbol s) : accept tokens [s] i = .ok none := by
  match kind with
  | .symbol s' =>
    have hne : s' ∉ [s] := by
      rw [List.mem_singleton]
      rintro rfl
      exact hkind rfl
    rw [accept_of_symbol hdrop, if_neg hne]
  | .number _ | .text _ | .ident _ | .stop => exact accept_of_ne hdrop (by simp) _

end Token

/-- One of some symbols is passed over with guards if it is without. -/
theorem accept_cases (hclosed : Closed tokens) (hi : i < tokens.length) {α : Type}
    {meaning : Symbol → Option α} {symbols : List Symbol}
    (hsame : ∀ s, s ∈ symbols ↔ (meaning s).isSome = true) :
    (Parser.accept? meaning (tokens.drop i) = none ∧ accept tokens symbols i = .ok none) ∨
    ∃ s a, meaning s = some a ∧ i + 1 < tokens.length ∧
      Parser.accept? meaning (tokens.drop i) = some (a, tokens.drop (i + 1)) ∧
      accept tokens symbols i = .ok (some (s, i + 1)) := by
  obtain ⟨⟨kind, position⟩, rest, hdrop⟩ := exists_drop_eq_cons hi
  match kind with
  | .symbol s =>
    rw [accept_of_symbol hdrop, hdrop, ← drop_succ_of_drop hdrop]
    cases hmeaning : meaning s with
    | none =>
      left
      have hnot : s ∉ symbols := by simp [hsame, hmeaning]
      simp [Parser.accept?, hmeaning, hnot]
    | some a =>
      right
      have hmem : s ∈ symbols := by simp [hsame, hmeaning]
      refine ⟨s, a, hmeaning, hclosed.succ_lt_length hdrop (by simp), ?_, by rw [if_pos hmem]⟩
      simp [Parser.accept?, hmeaning]
  | .number _ | .text _ | .ident _ | .stop =>
    left
    rw [accept_of_ne hdrop (by simp), hdrop]
    exact ⟨rfl, rfl⟩

/-- A symbol that has to be there is passed over with guards if it is without. -/
theorem expect_cases (hclosed : Closed tokens) (hi : i < tokens.length) (s : Symbol) :
    (∃ error, Parser.expect s (tokens.drop i) = .error error ∧
      expect tokens s i = .error (.declared error)) ∨
    i + 1 < tokens.length ∧ Parser.expect s (tokens.drop i) = .ok (tokens.drop (i + 1)) ∧
      expect tokens s i = .ok (i + 1) := by
  obtain ⟨⟨kind, position⟩, rest, hdrop⟩ := exists_drop_eq_cons hi
  by_cases hkind : kind = .symbol s
  · right
    subst hkind
    rw [expect, accept_of_symbol hdrop, if_pos List.mem_cons_self, drop_succ_of_drop hdrop, hdrop]
    exact ⟨hclosed.succ_lt_length hdrop (by simp), if_pos rfl, rfl⟩
  · left
    rw [expect, accept_eq_none hdrop hkind, ok_bind, current_of_drop hdrop, hdrop]
    exact ⟨_, if_neg hkind, rfl⟩

/-- What follows behind a symbol that has to be there follows in front of it. -/
theorem follows_expect (hclosed : Closed tokens) (hi : i < tokens.length) (s : Symbol)
    {f : List Token → Except ConditionError (Expr × List Token)} {g : Reader}
    (hnext : i + 1 < tokens.length → Follows tokens (i + 1) (f (tokens.drop (i + 1))) (g (i + 1))) :
    Follows tokens i (Parser.expect s (tokens.drop i) >>= f) (expect tokens s i >>= g) := by
  rcases expect_cases hclosed hi s with ⟨error, herror, hguarded⟩ | ⟨hlt, hok, hguarded⟩
  · rw [herror, hguarded]
    exact .error error
  · rw [hok, hguarded]
    exact (hnext hlt).mono (Nat.le_succ i)

/-! ## Readers -/

variable {read : Parser.Reader} {guarded : Reader}

theorem node_spelled {level : Level} {s : Symbol} {op : Operator} (h : level.operator? s = some op)
    (left right : Expr) :
    node level s.spelling left.spelled right.spelled = (op.apply left right).spelled := by
  cases level <;> cases s <;> cases h <;> rfl

theorem mem_operators_map_iff {level : Level} {s : Symbol} :
    s ∈ level.operators.map Prod.fst ↔ (level.operator? s).isSome = true := by
  rw [List.mem_map, Option.isSome_iff_exists]
  constructor
  · rintro ⟨⟨s, op⟩, hmem, rfl⟩
    exact ⟨op, Level.mem_operators_iff.mp hmem⟩
  · rintro ⟨op, hop⟩
    exact ⟨(s, op), Level.mem_operators_iff.mpr hop, rfl⟩

theorem follows_chainFrom (hclosed : Closed tokens) (hread : Simulates tokens read guarded)
    (level : Level) {steps steps' : Nat} (left : Expr) (hi : i < tokens.length)
    (hsteps : tokens.length ≤ i + steps) (hsteps' : tokens.length ≤ i + steps') :
    Follows tokens i (Parser.chainFrom level read steps left (tokens.drop i))
      (chainFrom tokens level guarded steps' left.spelled i) := by
  induction steps' generalizing steps left i with
  | zero => omega
  | succ steps' ih =>
    obtain ⟨k, rfl⟩ : ∃ k, steps = k + 1 := Nat.exists_eq_succ_of_ne_zero (by omega)
    rw [Parser.chainFrom, chainFrom]
    rcases accept_cases hclosed hi fun _ ↦ mem_operators_map_iff with ⟨hnone, haccept⟩ |
      ⟨s, op, hop, hlt, hsome, haccept⟩
    · rw [hnone, haccept]
      exact .ok left (Nat.le_refl i) hi
    · rw [hsome, haccept]
      refine .mono (.bind (hread (i + 1) hlt) fun right j hle hj ↦ ?_) (Nat.le_succ i)
      have hk : tokens.length ≤ j + k := by omega
      have hnext := ih (op.apply left right) hj hk (by omega)
      rwa [← node_spelled hop] at hnext

theorem Simulates.chain (hclosed : Closed tokens) (hread : Simulates tokens read guarded)
    (level : Level) : Simulates tokens (Parser.chain level read) (chain tokens level guarded) := by
  intro i hi
  refine (hread i hi).bind fun left j hle hj ↦ ?_
  exact follows_chainFrom hclosed hread level left hj (by rw [List.length_drop]; omega) (by omega)

theorem Simulates.expression (hclosed : Closed tokens) (hread : Simulates tokens read guarded) :
    Simulates tokens (Parser.expression read) (expression tokens guarded) := by
  rw [Parser.expression, Guarded.expression]
  induction Level.all with
  | nil => exact hread
  | cons level levels ih => exact ih.chain hclosed level

theorem Simulates.primary (hclosed : Closed tokens) (hread : Simulates tokens read guarded) :
    Simulates tokens (Parser.primary read) (primary tokens guarded) := by
  intro i hi
  obtain ⟨⟨kind, position⟩, rest, hdrop⟩ := exists_drop_eq_cons hi
  have hnext (hkind : kind ≠ .stop) : i + 1 < tokens.length := hclosed.succ_lt_length hdrop hkind
  rw [Guarded.primary, current_of_drop hdrop, ok_bind, hdrop, ← drop_succ_of_drop hdrop]
  match kind with
  | .number value =>
    exact .ok (.literal (TokenKind.numberLiteral value)) (Nat.le_succ i) (hnext (by simp))
  | .text t => exact .ok (.literal (.text t)) (Nat.le_succ i) (hnext (by simp))
  | .ident word =>
    dsimp only [Parser.primary]
    rcases Literal.keywords.lookup word with _ | literal
    · cases hname : BoundName.ofSpelling? word with
      | none =>
        have hnot : word ∉ BoundName.all.map BoundName.spelling := by
          intro hmem
          obtain ⟨name, -, rfl⟩ := List.mem_map.mp hmem
          rw [name.ofSpelling?_spelling] at hname
          cases hname
        rw [if_neg hnot]
        exact .error _
      | some name =>
        obtain rfl := Parser.eq_spelling_of_ofSpelling? hname
        have hmem : name.spelling ∈ BoundName.all.map BoundName.spelling := by
          cases name <;> decide
        rw [if_pos hmem]
        exact .ok (.name name) (Nat.le_succ i) (hnext (by simp))
    · exact .ok (.literal literal) (Nat.le_succ i) (hnext (by simp))
  | .symbol s =>
    by_cases hparen : s = .openParen
    · subst hparen
      refine .mono (.bind (hread (i + 1) (hnext (by simp))) fun e j _ hj ↦ ?_) (Nat.le_succ i)
      exact follows_expect hclosed hj .closeParen fun hlt ↦ .ok e (Nat.le_refl _) hlt
    · dsimp only
      rw [if_neg hparen]
      cases s with
      | openParen => exact absurd rfl hparen
      | _ => exact .error _
  | .stop => exact .error _

/-- Neither a point nor an opening bracket, no property access. -/
theorem memberFrom_of_ne {kind : TokenKind} (hdot : kind ≠ .symbol .dot)
    (hbracket : kind ≠ .symbol .openBracket) {steps position : Nat} {target : Expr}
    {rest : List Token} : Parser.memberFrom read (steps + 1) target (⟨kind, position⟩ :: rest) =
      .ok (target, ⟨kind, position⟩ :: rest) := by
  match kind with
  | .symbol s =>
    cases s with
    | dot => exact absurd rfl hdot
    | openBracket => exact absurd rfl hbracket
    | _ => rfl
  | .number _ | .text _ | .ident _ | .stop => rfl

theorem follows_memberFrom (hclosed : Closed tokens) (hread : Simulates tokens read guarded)
    {steps steps' : Nat} (target : Expr) (hi : i < tokens.length)
    (hsteps : tokens.length ≤ i + steps) (hsteps' : tokens.length ≤ i + steps') :
    Follows tokens i (Parser.memberFrom read steps target (tokens.drop i))
      (memberFrom tokens guarded steps' target.spelled i) := by
  induction steps' generalizing steps target i with
  | zero => omega
  | succ steps' ih =>
    obtain ⟨k, rfl⟩ : ∃ k, steps = k + 1 := Nat.exists_eq_succ_of_ne_zero (by omega)
    obtain ⟨⟨kind, position⟩, rest, hdrop⟩ := exists_drop_eq_cons hi
    rw [memberFrom]
    by_cases hdot : kind = .symbol .dot
    · subst hdot
      have hlt : i + 1 < tokens.length := hclosed.succ_lt_length hdrop (by simp)
      obtain ⟨⟨kind, place⟩, rest', hdrop'⟩ := exists_drop_eq_cons hlt
      rw [accept_of_symbol hdrop, if_pos List.mem_cons_self, hdrop, ← drop_succ_of_drop hdrop,
        hdrop', ← drop_succ_of_drop hdrop', ok_bind]
      dsimp only
      rw [current_of_drop hdrop', ok_bind]
      match kind with
      | .ident name =>
        have hlt' : i + 2 < tokens.length := hclosed.succ_lt_length hdrop' (by simp)
        have hk : tokens.length ≤ i + 2 + k := by omega
        exact (ih (.member target (.literal (.text name))) hlt' hk (by omega)).mono (by omega)
      | .number _ | .text _ | .symbol _ | .stop => exact .error _
    by_cases hbracket : kind = .symbol .openBracket
    · subst hbracket
      have hlt : i + 1 < tokens.length := hclosed.succ_lt_length hdrop (by simp)
      rw [accept_of_symbol hdrop, if_neg (by decide), ok_bind]
      dsimp only
      rw [accept_of_symbol hdrop, if_pos List.mem_cons_self, hdrop, ← drop_succ_of_drop hdrop,
        ok_bind]
      refine .mono (.bind (hread (i + 1) hlt) fun key j hle hj ↦ ?_) (Nat.le_succ i)
      refine follows_expect hclosed hj .closeBracket fun hlt' ↦ ?_
      have hk : tokens.length ≤ j + 1 + k := by omega
      exact ih (.member target key) hlt' hk (by omega)
    · rw [accept_eq_none hdrop hdot, ok_bind]
      dsimp only
      rw [accept_eq_none hdrop hbracket, ok_bind, hdrop, memberFrom_of_ne hdot hbracket, ← hdrop]
      exact .ok target (Nat.le_refl i) hi

theorem Simulates.member (hclosed : Closed tokens) (hread : Simulates tokens read guarded) :
    Simulates tokens (Parser.member read) (member tokens guarded) := by
  intro i hi
  refine (hread.primary hclosed i hi).bind fun target j hle hj ↦ ?_
  exact follows_memberFrom hclosed hread target hj (by rw [List.length_drop]; omega) (by omega)

theorem simulates_operand (hclosed : Closed tokens) (levels : Nat) :
    Simulates tokens (Parser.operand levels) (operand tokens levels) := by
  induction levels with
  | zero => exact fun i _ ↦ .error .tooDeep
  | succ levels ih =>
    intro i hi
    rw [Parser.operand, operand]
    have hsame (s : Symbol) :
        s ∈ UnaryOp.symbols.map Prod.fst ↔ (UnaryOp.ofSymbol? s).isSome = true := by
      cases s <;> decide
    rcases accept_cases hclosed hi hsame with ⟨hnone, haccept⟩ | ⟨s, op, hop, hlt, hsome, haccept⟩
    · rw [hnone, haccept]
      exact (ih.expression hclosed).member hclosed i hi
    · rw [hsome, haccept]
      refine .mono (.bind (ih (i + 1) hlt) fun e j _ hj ↦ ?_) (Nat.le_succ i)
      have hspelled : s.spelling = op.symbol.spelling := by
        cases s <;> cases hop <;> rfl
      rw [hspelled]
      exact .ok (.unary op e) (Nat.le_refl j) hj

/-- **Parsing comes to no fault.** On tokens that end with the closing one, the tree is the same
with guards. -/
theorem parse_eq (hclosed : Closed tokens) :
    parse tokens = declare ((Parser.parse tokens).map Expr.spelled) := by
  have hpos : 0 < tokens.length := by
    obtain ⟨body, position, rfl⟩ := hclosed
    simp
  have hread := (simulates_operand hclosed Stack.parsing).expression hclosed 0 hpos
  rw [parse, Parser.parse, Parser.parseWithin]
  rw [List.drop_zero] at hread
  generalize Parser.expression (Parser.operand Stack.parsing) tokens = x at hread
  generalize expression tokens (operand tokens Stack.parsing) 0 = y at hread
  cases hread with
  | error error => rfl
  | ok e hle hlt =>
    obtain ⟨⟨kind, position⟩, rest, hdrop⟩ := exists_drop_eq_cons hlt
    rw [ok_bind, ok_bind]
    dsimp only
    rw [current_of_drop hdrop, hdrop]
    match kind with
    | .stop => rfl
    | .number _ | .text _ | .ident _ | .symbol _ => rfl

end Guarded

end MockApi
