import MockApi.Proofs.Condition.Completeness
import MockApi.Proofs.Condition.Scanning
import MockApi.Condition.Basic

/-!
# Printing conditions

A tree is printed with parentheses only where a phrase stands in a place that wants a tighter one:
around the operands of operators that bind no looser, which for the right operand includes operators
of the same level, around the operand of a unary operator and around the target of a property
access. Any white space, or none, may stand around the operators with two operands.

What is printed is a spelling of a phrase whose tree is the one printed, so compiling it gives the
tree back, provided that it is not nested beyond the limit. `Spells` is the invariant: it joins the
phrase with the scanning of its text in front of anything that ends a word.
-/

namespace MockApi

/-! ## Places and parentheses -/

namespace PhraseKind

/-- How tightly a kind of phrase binds. -/
def tightness : PhraseKind → Nat
  | chain .or => 0
  | chain .and => 1
  | chain .equality => 2
  | chain .relational => 3
  | chain .additive => 4
  | chain .multiplicative => 5
  | unary => 6
  | member => 7
  | primary => 8

/-- A phrase of a kind may stand in a place without parentheses. -/
def Fits (kind place : PhraseKind) : Prop := place.tightness ≤ kind.tightness

instance (kind place : PhraseKind) : Decidable (kind.Fits place) :=
  inferInstanceAs (Decidable (_ ≤ _))

/-- The text of a phrase in a place, with parentheses if it needs them. -/
def enclose (kind place : PhraseKind) (t : Text) : Text :=
  if kind.Fits place then t
  else Symbol.openParen.spelling ++ (t ++ Symbol.closeParen.spelling)

/-- The levels of nesting of a phrase in a place. -/
def enclosedNesting (kind place : PhraseKind) (n : Nat) : Nat :=
  if kind.Fits place then n else n + 1

theorem tightness_injective {kind place : PhraseKind} (h : kind.tightness = place.tightness) :
    kind = place := by
  cases kind with
  | chain l =>
    cases place with
    | chain l' => cases l <;> cases l' <;> first | rfl | cases h
    | unary | member | primary => cases l <;> cases h
  | unary | member | primary =>
    cases place with
    | chain l' => cases l' <;> cases h
    | unary | member | primary => first | rfl | cases h

theorem tightness_operandKind (level : Level) :
    level.operandKind.tightness = (chain level).tightness + 1 := by
  cases level <;> rfl

/-- All kinds of phrases but the loosest are phrases of the kind before them, too. -/
theorem exists_looser {kind : PhraseKind} (h : kind ≠ chain .or) :
    ∃ looser, kind.tightness = looser.tightness + 1 ∧
      ∀ n ts e, Phrase kind n ts e → Phrase looser n ts e := by
  have hoperand (level : Level) : ∃ looser, level.operandKind.tightness = looser.tightness + 1 ∧
      ∀ n ts e, Phrase level.operandKind n ts e → Phrase looser n ts e :=
    ⟨chain level, tightness_operandKind level, fun _ _ _ ↦ .operand⟩
  cases kind with
  | chain level =>
    cases level with
    | or => exact absurd rfl h
    | and => exact hoperand .or
    | equality => exact hoperand .and
    | relational => exact hoperand .equality
    | additive => exact hoperand .relational
    | multiplicative => exact hoperand .additive
  | unary => exact hoperand .multiplicative
  | member => exact ⟨unary, rfl, fun _ _ _ ↦ .plain⟩
  | primary => exact ⟨member, rfl, fun _ _ _ ↦ .target⟩

end PhraseKind

/-- A phrase is a phrase of every looser kind. -/
theorem Phrase.loosen {kind place : PhraseKind} {n : Nat} {ts : List TokenKind} {e : Expr}
    (h : Phrase kind n ts e) (hfits : kind.Fits place) : Phrase place n ts e := by
  obtain ⟨d, hd⟩ := Nat.exists_eq_add_of_le hfits
  induction d generalizing kind with
  | zero => rwa [← PhraseKind.tightness_injective hd]
  | succ d ih =>
    have hne : kind ≠ .chain .or := by
      rintro rfl
      cases hd
    obtain ⟨looser, hlooser, hphrase⟩ := PhraseKind.exists_looser hne
    have hd' : looser.tightness = place.tightness + d := by omega
    exact ih (hphrase n ts e h) (Nat.le.intro hd'.symm) hd'

/-! ## Operators and their symbols -/

namespace Operator

/-- The level of an operator. -/
def level : Operator → Level
  | logical .or => .or
  | logical .and => .and
  | binary .strictEqual | binary .strictUnequal | binary .looseEqual | binary .looseUnequal =>
    .equality
  | binary (.relation _) => .relational
  | binary .add | binary (.arithmetic .subtract) => .additive
  | binary (.arithmetic _) => .multiplicative

/-- The symbol of an operator. -/
def symbol : Operator → Symbol
  | logical .or => .or
  | logical .and => .and
  | binary .strictEqual => .strictEqual
  | binary .strictUnequal => .strictUnequal
  | binary .looseEqual => .looseEqual
  | binary .looseUnequal => .looseUnequal
  | binary (.relation .less) => .less
  | binary (.relation .lessEqual) => .lessEqual
  | binary (.relation .greater) => .greater
  | binary (.relation .greaterEqual) => .greaterEqual
  | binary .add => .plus
  | binary (.arithmetic .subtract) => .minus
  | binary (.arithmetic .multiply) => .times
  | binary (.arithmetic .divide) => .divide
  | binary (.arithmetic .remainder) => .remainder

theorem mem_operators (op : Operator) : (op.symbol, op) ∈ op.level.operators := by
  cases op with
  | logical op => cases op <;> decide
  | binary op =>
    cases op with
    | relation r => cases r <;> decide
    | arithmetic op => cases op <;> decide
    | _ => decide

theorem symbol_ne_dot (op : Operator) : op.symbol ≠ .dot := by
  intro h
  have hmem := op.mem_operators
  rw [h] at hmem
  revert hmem
  cases op.level <;> simp [Level.operators]

end Operator

namespace UnaryOp

/-- The symbol of a unary operator. -/
def symbol : UnaryOp → Symbol
  | not => .not
  | negate => .minus
  | plus => .plus

theorem mem_symbols (op : UnaryOp) : (op.symbol, op) ∈ symbols := by
  cases op <;> decide

theorem symbol_ne_dot (op : UnaryOp) : op.symbol ≠ .dot := by
  cases op <;> decide

end UnaryOp

/-! ## Printing -/

/-- The escape of a code point between apostrophes: the apostrophe, the backslash and the line feed
have one, every other code point stands for itself. -/
def escapeCodePoint (c : Nat) : Text :=
  if c = '\n'.toNat then [Text.backslash, 'n'.toNat]
  else if c = Text.backslash ∨ c = Text.apostrophe then [Text.backslash, c]
  else [c]

/-- The text of a number. -/
def Number.print : Number → Text
  | .int n => Text.ofInt n
  | .double x => DoubleNotation.literal.write x

/-- The text of a literal. -/
def Literal.print : Literal → Text
  | .null => "null"
  | .undefined => "undefined"
  | .bool true => "true"
  | .bool false => "false"
  | .number x => x.print
  | .text t => Text.apostrophe :: (t.flatMap escapeCodePoint ++ [Text.apostrophe])

/-- The literals that are printed as they are read: all but doubles, negative integers and integers
with more digits than the limit. -/
def Literal.Printable : Literal → Prop
  | .number (.int n) => 0 ≤ n ∧ (Nat.toDigits 10 n.natAbs).length ≤ decimalDigitLimit
  | .number (.double _) => False
  | _ => True

namespace Expr

/-- The kind of phrase that a tree is printed as. -/
def kind : Expr → PhraseKind
  | literal _ | name _ => .primary
  | member _ _ => .member
  | unary _ _ => .unary
  | logical op _ _ => .chain (Operator.logical op).level
  | binary op _ _ => .chain (Operator.binary op).level

/-- The text of an operator between its operands, given by their kinds and texts. -/
def printOperator (gap : Text) (op : Operator) (left right : PhraseKind × Text) : Text :=
  left.1.enclose (.chain op.level) left.2 ++ (gap ++ (op.symbol.spelling ++
    (gap ++ right.1.enclose op.level.operandKind right.2)))

/-- The text of a tree, with `gap` around the operators with two operands. -/
def print (gap : Text) : Expr → Text
  | literal value => value.print
  | name n => n.spelling
  | member target key => target.kind.enclose .member (target.print gap) ++
      (Symbol.openBracket.spelling ++ (key.print gap ++ Symbol.closeBracket.spelling))
  | unary op operand => op.symbol.spelling ++ operand.kind.enclose .unary (operand.print gap)
  | logical op left right =>
    printOperator gap (.logical op) (left.kind, left.print gap) (right.kind, right.print gap)
  | binary op left right =>
    printOperator gap (.binary op) (left.kind, left.print gap) (right.kind, right.print gap)

/-- The levels of nesting of an operator between its operands. -/
def operatorNesting (op : Operator) (left right : PhraseKind × Nat) : Nat :=
  max (left.1.enclosedNesting (.chain op.level) left.2)
    (right.1.enclosedNesting op.level.operandKind right.2)

/-- The levels of nesting of a tree as it is printed. -/
def nesting : Expr → Nat
  | literal _ | name _ => 1
  | member target key => max (target.kind.enclosedNesting .member target.nesting) (key.nesting + 1)
  | unary _ operand => operand.kind.enclosedNesting .unary operand.nesting + 1
  | logical op left right =>
    operatorNesting (.logical op) (left.kind, left.nesting) (right.kind, right.nesting)
  | binary op left right =>
    operatorNesting (.binary op) (left.kind, left.nesting) (right.kind, right.nesting)

/-- All literals of a tree are printable. -/
def Printable : Expr → Prop
  | literal value => value.Printable
  | name _ => True
  | member a b | logical _ a b | binary _ a b => a.Printable ∧ b.Printable
  | unary _ a => a.Printable

end Expr

end MockApi
