import MockApi.Value.Coercion

/-!
# Order of values

Two texts are ordered by their code points; any other two values are ordered as the numbers they
count as, exactly, and have no order if one of them counts as NaN.
-/

namespace MockApi

/-- The relations that the order of values decides. -/
inductive Relation
  | less
  | lessEqual
  | greater
  | greaterEqual
deriving DecidableEq, Repr

namespace Relation

/-- The symbol of a relation. -/
def symbol : Relation → Text
  | less => "<"
  | lessEqual => "<="
  | greater => ">"
  | greaterEqual => ">="

/-- The relation of a symbol. -/
def ofSymbol? (symbol : Text) : Option Relation :=
  [less, lessEqual, greater, greaterEqual].find? (·.symbol = symbol)

/-- Whether a relation holds between two things of the given order. -/
def holds : Relation → Ordering → Bool
  | less, o => o = .lt
  | lessEqual, o => o ≠ .gt
  | greater, o => o = .gt
  | greaterEqual, o => o ≠ .lt

theorem ofSymbol?_symbol (r : Relation) : ofSymbol? r.symbol = some r := by
  cases r <;> decide

end Relation

/-- The order of two texts by their code points. -/
def Text.order (s t : Text) : Ordering := if s < t then .lt else if s = t then .eq else .gt

namespace Value

variable [Stack]

/-- The order of two values, if they have one. -/
def order? (a b : Value) : Except Failure (Option Ordering) := do
  let a ← a.toPrimitive
  let b ← b.toPrimitive
  match a, b with
  | text s, text t => return some (Text.order s t)
  | a, b =>
    let x ← a.toNumber
    let y ← b.toNumber
    if ← x.testNaN then return none
    if ← y.testNaN then return none
    return x.compare? y

/-- Whether a relation holds between two values; without an order none does. -/
def compare (relation : Relation) (a b : Value) : Except Failure Bool := do
  match ← order? a b with
  | some o => return relation.holds o
  | none => return false

/-- Whether the relation of a symbol holds between two values. The symbol is looked up only for
values that have an order. -/
def compareBySymbol (symbol : Text) (a b : Value) : Except Failure Bool := do
  match ← order? a b with
  | some o => match Relation.ofSymbol? symbol with
    | some relation => return relation.holds o
    | none => throw (.unknownRelation symbol)
  | none => return false

theorem compareBySymbol_symbol (r : Relation) (a b : Value) :
    compareBySymbol r.symbol a b = compare r a b := by
  simp only [compareBySymbol, compare, Relation.ofSymbol?_symbol]

end Value

end MockApi
