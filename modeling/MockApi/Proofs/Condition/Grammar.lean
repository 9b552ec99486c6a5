import MockApi.Condition.Parser

/-!
# The grammar of conditions

The phrases of conditions as a relation between a kind of phrase, the kinds of its tokens and its
tree, with one rule per alternative of the grammar. A level of operators is left-recursive: a chain
is an operand, or a chain with an operator and an operand behind it, which makes the operators of a
level group to the left.

A phrase also counts its levels of nesting, one for each operand and one more for each parenthesis,
bracket and unary operator around it. The count is at most the number of tokens, and it is what
decides whether a parser that stops at a limit gets through.
-/

namespace MockApi

/-- The kinds of phrases. -/
inductive PhraseKind
  /-- Operands with operators of a level between them. -/
  | chain (level : Level)
  /-- A member phrase with unary operators in front. -/
  | unary
  /-- A primary with property accesses behind it. -/
  | member
  /-- A literal, a name, or an expression between parentheses. -/
  | primary
deriving DecidableEq, Repr

namespace Level

/-- The phrases between the operators of a level. -/
def operandKind : Level → PhraseKind
  | or => .chain .and
  | and => .chain .equality
  | equality => .chain .relational
  | relational => .chain .additive
  | additive => .chain .multiplicative
  | multiplicative => .unary

/-- The levels inside a level, the loosest first. -/
def tighter (level : Level) : List Level := (all.dropWhile (· ≠ level)).tail

/-- The symbols of the operators of a level. -/
def operators : Level → List (Symbol × Operator)
  | or => [(.or, .logical .or)]
  | and => [(.and, .logical .and)]
  | equality => [(.strictEqual, .binary .strictEqual), (.strictUnequal, .binary .strictUnequal),
      (.looseEqual, .binary .looseEqual), (.looseUnequal, .binary .looseUnequal)]
  | relational => [(.less, .binary (.relation .less)), (.lessEqual, .binary (.relation .lessEqual)),
      (.greater, .binary (.relation .greater)),
      (.greaterEqual, .binary (.relation .greaterEqual))]
  | additive => [(.plus, .binary .add), (.minus, .binary (.arithmetic .subtract))]
  | multiplicative => [(.times, .binary (.arithmetic .multiply)),
      (.divide, .binary (.arithmetic .divide)), (.remainder, .binary (.arithmetic .remainder))]

theorem mem_operators_iff {level : Level} {s : Symbol} {op : Operator} :
    (s, op) ∈ level.operators ↔ level.operator? s = some op := by
  cases level <;> cases s <;> simp [operators, operator?, eq_comm]

end Level

namespace UnaryOp

/-- The symbols of the unary operators. -/
def symbols : List (Symbol × UnaryOp) := [(.not, .not), (.minus, .negate), (.plus, .plus)]

theorem mem_symbols_iff {s : Symbol} {op : UnaryOp} :
    (s, op) ∈ symbols ↔ ofSymbol? s = some op := by
  cases s <;> simp [symbols, ofSymbol?, eq_comm]

end UnaryOp

/-- The phrases of the grammar: `Phrase kind n ts e` says that the tokens of kinds `ts` make a
phrase of the given kind with `n` levels of nesting, and that its tree is `e`. -/
inductive Phrase : PhraseKind → Nat → List TokenKind → Expr → Prop
  | operand {level : Level} {n : Nat} {ts : List TokenKind} {e : Expr}
      (he : Phrase level.operandKind n ts e) : Phrase (.chain level) n ts e
  | operator {level : Level} {s : Symbol} {op : Operator} {m n : Nat} {left right : List TokenKind}
      {l r : Expr} (hop : (s, op) ∈ level.operators) (hl : Phrase (.chain level) m left l)
      (hr : Phrase level.operandKind n right r) :
      Phrase (.chain level) (max m n) (left ++ .symbol s :: right) (op.apply l r)
  | sign {s : Symbol} {op : UnaryOp} {n : Nat} {ts : List TokenKind} {e : Expr}
      (hop : (s, op) ∈ UnaryOp.symbols) (he : Phrase .unary n ts e) :
      Phrase .unary (n + 1) (.symbol s :: ts) (.unary op e)
  | plain {n : Nat} {ts : List TokenKind} {e : Expr} (he : Phrase .member n ts e) :
      Phrase .unary n ts e
  | target {n : Nat} {ts : List TokenKind} {e : Expr} (he : Phrase .primary n ts e) :
      Phrase .member n ts e
  | property {n : Nat} {ts : List TokenKind} {e : Expr} {name : Text}
      (he : Phrase .member n ts e) :
      Phrase .member n (ts ++ [.symbol .dot, .ident name]) (.member e (.literal (.text name)))
  | item {m n : Nat} {ts key : List TokenKind} {e k : Expr} (he : Phrase .member m ts e)
      (hk : Phrase (.chain .or) n key k) :
      Phrase .member (max m (n + 1))
        (ts ++ .symbol .openBracket :: (key ++ [.symbol .closeBracket])) (.member e k)
  | number {value : Option Number} :
      Phrase .primary 1 [.number value] (.literal (TokenKind.numberLiteral value))
  | text {t : Text} : Phrase .primary 1 [.text t] (.literal (.text t))
  | keyword {word : Text} {value : Literal} (h : (word, value) ∈ Literal.keywords) :
      Phrase .primary 1 [.ident word] (.literal value)
  | name {name : BoundName} : Phrase .primary 1 [.ident name.spelling] (.name name)
  | parens {n : Nat} {ts : List TokenKind} {e : Expr} (he : Phrase (.chain .or) n ts e) :
      Phrase .primary (n + 1) (.symbol .openParen :: (ts ++ [.symbol .closeParen])) e

namespace Phrase

variable {kind : PhraseKind} {n : Nat} {ts : List TokenKind} {e : Expr}

theorem nesting_pos (h : Phrase kind n ts e) : 0 < n := by
  induction h <;> omega

/-- A phrase has at least as many tokens as levels of nesting. -/
theorem nesting_le_length (h : Phrase kind n ts e) : n ≤ ts.length := by
  induction h with
  | operand _ ih | plain _ ih | target _ ih => exact ih
  | operator _ _ _ ihl ihr => grind
  | sign _ _ ih | property _ ih | parens _ ih => grind
  | item _ _ ihe ihk => grind
  | number | text | keyword | name => simp

theorem ne_nil (h : Phrase kind n ts e) : ts ≠ [] := by
  rintro rfl
  have hpos := h.nesting_pos
  have hle := h.nesting_le_length
  simp only [List.length_nil] at hle
  omega

/-- No phrase holds the closing token. -/
theorem stop_notMem (h : Phrase kind n ts e) : TokenKind.stop ∉ ts := by
  induction h <;> simp_all

end Phrase

end MockApi
