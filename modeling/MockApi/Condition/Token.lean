import MockApi.Condition.Expr
import MockApi.Number.Numeral

/-!
# Tokens of conditions

A condition is cut into numbers, texts between quotation marks or apostrophes, identifiers and
symbols, with white space between them. Scanning takes the longest lexeme of the first class that
fits and remembers where each token starts; a closing token marks the end of the condition.
-/

namespace MockApi

/-- The symbols of conditions. -/
inductive Symbol
  | strictEqual
  | strictUnequal
  | looseEqual
  | looseUnequal
  | lessEqual
  | greaterEqual
  | and
  | or
  | less
  | greater
  | not
  | plus
  | minus
  | times
  | divide
  | remainder
  | openParen
  | closeParen
  | dot
  | openBracket
  | closeBracket
deriving DecidableEq, Repr

namespace Symbol

/-- The spelling of a symbol. -/
def spelling : Symbol → Text
  | strictEqual => "==="
  | strictUnequal => "!=="
  | looseEqual => "=="
  | looseUnequal => "!="
  | lessEqual => "<="
  | greaterEqual => ">="
  | and => "&&"
  | or => "||"
  | less => "<"
  | greater => ">"
  | not => "!"
  | plus => "+"
  | minus => "-"
  | times => "*"
  | divide => "/"
  | remainder => "%"
  | openParen => "("
  | closeParen => ")"
  | dot => "."
  | openBracket => "["
  | closeBracket => "]"

/-- All symbols, each in front of those that start it. -/
def all : List Symbol :=
  [strictEqual, strictUnequal, looseEqual, looseUnequal, lessEqual, greaterEqual, and, or, less,
    greater, not, plus, minus, times, divide, remainder, openParen, closeParen, dot, openBracket,
    closeBracket]

theorem mem_all (s : Symbol) : s ∈ all := by
  cases s <;> decide

end Symbol

/-- What a token is. -/
inductive TokenKind
  /-- A number, with what its numeral writes. -/
  | number (value : Option Number)
  /-- A text between marks. -/
  | text (t : Text)
  /-- An identifier. -/
  | ident (name : Text)
  /-- A symbol. -/
  | symbol (s : Symbol)
  /-- The end of the condition. -/
  | stop
deriving DecidableEq, Repr

/-- A token and the place where it starts. -/
structure Token where
  /-- What the token is. -/
  kind : TokenKind
  /-- The number of code points in front of the token. -/
  position : Nat
deriving DecidableEq, Repr

namespace TokenKind

/-- The literal that a number token stands for. -/
def numberLiteral : Option Number → Literal
  | some x => .number x
  | none => .null

/-- The token as messages show it. -/
def shown : TokenKind → Except Failure Text
  | number (some x) => x.write .literal
  | number none | stop => .ok "None"
  | text t => .ok t.quoted
  | ident name => .ok name.quoted
  | symbol s => .ok s.spelling.quoted

end TokenKind

/-- Why a condition has no value. -/
inductive ConditionError
  /-- No token starts with this code point. -/
  | unexpectedCharacter (c position : Nat)
  /-- A symbol is missing. -/
  | expectedSymbol (s : Symbol) (position : Nat)
  /-- The name of a property is missing after a point. -/
  | expectedPropertyName (position : Nat)
  /-- An identifier is no bound name. -/
  | notDefined (name : Text)
  /-- The condition stops where an operand should start. -/
  | unexpectedEnd
  /-- A token stands where none of its kind may stand. -/
  | unexpectedToken (token : Token)
  /-- The condition is nested beyond the limit. -/
  | tooDeep
  /-- Working out the value failed. -/
  | failed (failure : Failure)
deriving DecidableEq, Repr

namespace ConditionError

/-- The wording of an error about a condition; a value nested beyond the limit goes without
words. -/
def message? (source : Text) : ConditionError → Option Text
  | unexpectedCharacter c position =>
    some ("Unexpected character " ++ Text.quoted [c] ++ " at position " ++ Text.ofNat position)
  | expectedSymbol s position =>
    some ("Expected '" ++ s.spelling ++ "' at position " ++ Text.ofNat position)
  | expectedPropertyName position =>
    some ("Expected property name at position " ++ Text.ofNat position)
  | notDefined name => some (name ++ " is not defined")
  | unexpectedEnd => some "Unexpected end of condition"
  | unexpectedToken token => match token.kind.shown with
    | .ok shown =>
      some ("Unexpected token " ++ shown ++ " at position " ++ Text.ofNat token.position)
    | .error failure => failure.message?.map fun reason ↦
      "Cannot parse condition " ++ source.quoted ++ ": " ++ reason
  | tooDeep => some ("Condition too deeply nested: " ++ source.quoted)
  | failed failure => failure.message?.map fun reason ↦
    "Error evaluating condition " ++ source.quoted ++ ": " ++ reason

end ConditionError

end MockApi
