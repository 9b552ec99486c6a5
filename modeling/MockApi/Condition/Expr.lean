import MockApi.Value.Arithmetic
import MockApi.Value.Order

/-!
# Condition trees

A condition is an expression over the data of a request: literals, the three bound names, property
access, and operators. Names and property access apart, every node is an operator applied to its
operands, and the operators fall into three families: unary ones, the two connectives that may leave
their right operand alone, and the binary ones that work on both operands.
-/

namespace MockApi

/-- The names bound to the data of a request. -/
inductive BoundName
  | path
  | query
  | body
deriving DecidableEq, Repr

namespace BoundName

/-- The spelling of a name. -/
def spelling : BoundName → Text
  | path => "path"
  | query => "query"
  | body => "body"

/-- All names. -/
def all : List BoundName := [path, query, body]

/-- The name of a spelling. -/
def ofSpelling? (t : Text) : Option BoundName := all.find? (·.spelling = t)

theorem ofSpelling?_spelling (name : BoundName) : ofSpelling? name.spelling = some name := by
  cases name <;> decide

end BoundName

/-- The values that a condition can write down. -/
inductive Literal
  | null
  | undefined
  | bool (b : Bool)
  | number (x : Number)
  | text (t : Text)
deriving DecidableEq, Repr

namespace Literal

/-- The value of a literal. -/
def toValue : Literal → Value
  | null => .null
  | undefined => .undefined
  | bool b => .bool b
  | number x => .number x
  | text t => .text t

/-- The literals that are words. -/
def keywords : List (Text × Literal) :=
  [("true", bool true), ("false", bool false), ("null", null), ("undefined", undefined)]

end Literal

/-- The operators with one operand. -/
inductive UnaryOp
  | not
  | negate
  | plus
deriving DecidableEq, Repr

/-- The operators that may leave their right operand alone. -/
inductive LogicalOp
  | and
  | or
deriving DecidableEq, Repr

/-- The operators that work on both operands. -/
inductive BinaryOp
  | strictEqual
  | strictUnequal
  | looseEqual
  | looseUnequal
  | relation (r : Relation)
  | add
  | arithmetic (op : ArithmeticOp)
deriving DecidableEq, Repr

/-- A condition as a tree. -/
inductive Expr
  /-- A value written down. -/
  | literal (value : Literal)
  /-- A bound name. -/
  | name (name : BoundName)
  /-- The property of a target under a key. -/
  | member (target key : Expr)
  /-- An operator applied to one operand. -/
  | unary (op : UnaryOp) (operand : Expr)
  /-- A connective applied to two operands. -/
  | logical (op : LogicalOp) (left right : Expr)
  /-- An operator applied to two operands. -/
  | binary (op : BinaryOp) (left right : Expr)
deriving DecidableEq, Repr

end MockApi
