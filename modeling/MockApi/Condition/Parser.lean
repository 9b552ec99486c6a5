import MockApi.Condition.Lexer

/-!
# Parsing conditions

The grammar has six levels of left-associative operators, unary operators in front of an operand,
and property access behind a primary:

```text
or             := and ('||' and)*
and            := equality ('&&' equality)*
equality       := relational (('===' | '!==' | '==' | '!=') relational)*
relational     := additive (('<' | '<=' | '>' | '>=') additive)*
additive       := multiplicative (('+' | '-') multiplicative)*
multiplicative := unary (('*' | '/' | '%') unary)*
unary          := ('!' | '-' | '+') unary | member
member         := primary ('.' identifier | '[' or ']')*
primary        := number | text | keyword | bound name | '(' or ')'
```

Every parsing function takes the tokens from its place on and returns a tree with the tokens after
it. The levels share one function, `chain`, which takes the parser of its operands as an argument;
parentheses, brackets and unary operators open a level of nesting, and the number of levels is what
the recursion runs on.
-/

namespace MockApi

/-- The levels of operators with two operands, the loosest first. -/
inductive Level
  | or
  | and
  | equality
  | relational
  | additive
  | multiplicative
deriving DecidableEq, Repr

/-- An operator with two operands. -/
inductive Operator
  | logical (op : LogicalOp)
  | binary (op : BinaryOp)
deriving DecidableEq, Repr

/-- The tree of an operator and its operands. -/
def Operator.apply : Operator → Expr → Expr → Expr
  | logical op, left, right => .logical op left right
  | binary op, left, right => .binary op left right

namespace Level

/-- All levels, the loosest first. -/
def all : List Level := [or, and, equality, relational, additive, multiplicative]

/-- The operator that a symbol stands for at a level. -/
def operator? : Level → Symbol → Option Operator
  | or, .or => some (.logical .or)
  | and, .and => some (.logical .and)
  | equality, .strictEqual => some (.binary .strictEqual)
  | equality, .strictUnequal => some (.binary .strictUnequal)
  | equality, .looseEqual => some (.binary .looseEqual)
  | equality, .looseUnequal => some (.binary .looseUnequal)
  | relational, .lessEqual => some (.binary (.relation .lessEqual))
  | relational, .greaterEqual => some (.binary (.relation .greaterEqual))
  | relational, .less => some (.binary (.relation .less))
  | relational, .greater => some (.binary (.relation .greater))
  | additive, .plus => some (.binary .add)
  | additive, .minus => some (.binary (.arithmetic .subtract))
  | multiplicative, .times => some (.binary (.arithmetic .multiply))
  | multiplicative, .divide => some (.binary (.arithmetic .divide))
  | multiplicative, .remainder => some (.binary (.arithmetic .remainder))
  | _, _ => none

end Level

/-- The unary operator that a symbol stands for. -/
def UnaryOp.ofSymbol? : Symbol → Option UnaryOp
  | .not => some .not
  | .minus => some .negate
  | .plus => some .plus
  | _ => none

namespace Parser

/-- Takes a symbol off the tokens if it stands for something. -/
def accept? {α : Type} (meaning : Symbol → Option α) : List Token → Option (α × List Token)
  | ⟨.symbol s, _⟩ :: rest => (meaning s).map fun a ↦ (a, rest)
  | _ => none

/-- Takes a symbol off the tokens that has to be there. -/
def expect (s : Symbol) : List Token → Except ConditionError (List Token)
  | token :: rest =>
    if token.kind = .symbol s then .ok rest else .error (.expectedSymbol s token.position)
  | [] => .error .unexpectedEnd

/-- Operators of a level with operands after a left operand, at most `steps` of them. -/
def chainFrom (level : Level) (operand : List Token → Except ConditionError (Expr × List Token)) :
    Nat → Expr → List Token → Except ConditionError (Expr × List Token)
  | 0, left, tokens => .ok (left, tokens)
  | steps + 1, left, tokens =>
    match accept? level.operator? tokens with
    | none => .ok (left, tokens)
    | some (operator, tokens) => do
      let (right, tokens) ← operand tokens
      chainFrom level operand steps (operator.apply left right) tokens

/-- Operands with operators of a level between them. -/
def chain (level : Level) (operand : List Token → Except ConditionError (Expr × List Token))
    (tokens : List Token) : Except ConditionError (Expr × List Token) := do
  let (left, tokens) ← operand tokens
  chainFrom level operand tokens.length left tokens

/-- An expression over operands: the levels one inside the other. -/
def expression (operand : List Token → Except ConditionError (Expr × List Token)) :
    List Token → Except ConditionError (Expr × List Token) :=
  Level.all.foldr chain operand

/-- A number, a text, a word, or an expression between parentheses. -/
def primary (expression : List Token → Except ConditionError (Expr × List Token)) :
    List Token → Except ConditionError (Expr × List Token)
  | ⟨.number value, _⟩ :: rest => .ok (.literal (TokenKind.numberLiteral value), rest)
  | ⟨.text t, _⟩ :: rest => .ok (.literal (.text t), rest)
  | ⟨.ident name, _⟩ :: rest =>
    match Literal.keywords.lookup name, BoundName.ofSpelling? name with
    | some literal, _ => .ok (.literal literal, rest)
    | none, some name => .ok (.name name, rest)
    | none, none => .error (.notDefined name)
  | ⟨.symbol .openParen, _⟩ :: rest => do
    let (e, rest) ← expression rest
    return (e, ← expect .closeParen rest)
  | ⟨.symbol s, position⟩ :: _ => .error (.unexpectedToken ⟨.symbol s, position⟩)
  | ⟨.stop, _⟩ :: _ | [] => .error .unexpectedEnd

/-- Property accesses after a target, at most `steps` of them. -/
def memberFrom (expression : List Token → Except ConditionError (Expr × List Token)) :
    Nat → Expr → List Token → Except ConditionError (Expr × List Token)
  | 0, target, tokens => .ok (target, tokens)
  | steps + 1, target, tokens =>
    match tokens with
    | ⟨.symbol .dot, _⟩ :: ⟨.ident name, _⟩ :: rest =>
      memberFrom expression steps (.member target (.literal (.text name))) rest
    | ⟨.symbol .dot, _⟩ :: token :: _ => .error (.expectedPropertyName token.position)
    | ⟨.symbol .dot, _⟩ :: [] => .error .unexpectedEnd
    | ⟨.symbol .openBracket, _⟩ :: rest => do
      let (key, rest) ← expression rest
      let rest ← expect .closeBracket rest
      memberFrom expression steps (.member target key) rest
    | tokens => .ok (target, tokens)

/-- A primary with property accesses. -/
def member (expression : List Token → Except ConditionError (Expr × List Token))
    (tokens : List Token) : Except ConditionError (Expr × List Token) := do
  let (target, tokens) ← primary expression tokens
  memberFrom expression tokens.length target tokens

/-- An operand with unary operators in front, nested no more than `levels` deep. -/
def operand : Nat → List Token → Except ConditionError (Expr × List Token)
  | 0, _ => .error .tooDeep
  | levels + 1, tokens =>
    match accept? UnaryOp.ofSymbol? tokens with
    | some (op, tokens) => do
      let (e, tokens) ← operand levels tokens
      return (.unary op e, tokens)
    | none => member (expression (operand levels)) tokens

/-- The tree of all the tokens up to the closing one, nested no more than `levels` deep. -/
def parseWithin (levels : Nat) (tokens : List Token) : Except ConditionError Expr := do
  let (e, rest) ← expression (operand levels) tokens
  match rest with
  | ⟨.stop, _⟩ :: _ | [] => return e
  | token :: _ => throw (.unexpectedToken token)

/-- The tree of all the tokens up to the closing one. -/
def parse [Stack] (tokens : List Token) : Except ConditionError Expr :=
  parseWithin Stack.parsing tokens

end Parser

end MockApi
