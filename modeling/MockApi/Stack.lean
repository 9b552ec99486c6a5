/-!
# Room on the stack

Values, documents and conditions are walked through by recursion, so how deep they may be nested is
a matter of the room on the stack and of how much of it a walk takes for a level. Neither is known
here: a stack tells the number of levels of every walk. Walks that take less for a level have more
levels, and a value that is turned into a text while a tree is worked out has to make do with what
the tree has left.
-/

namespace MockApi

/-- A stack, told by the levels of nesting that it has room for. -/
class Stack where
  /-- The levels of a condition that is parsed. -/
  parsing : Nat
  /-- The levels of a tree that is worked out. -/
  evaluating : Nat
  /-- The levels of a value that is turned into a text. -/
  texts : Nat
  /-- The levels of a value that is turned into a text inside a tree with some levels left. -/
  textsUnder (levels : Nat) : Nat
  /-- The levels of a value that is shown in full. -/
  shown : Nat
  /-- The levels of a value that is made ready for JSON. -/
  ready : Nat
  /-- The levels of a value that is written as a document. -/
  writing : Nat
  /-- The levels of a document that is read. -/
  reading : Nat
  /-- There is room for small conditions. -/
  four_le_parsing : 4 ≤ parsing
  /-- There is room for small trees. -/
  four_le_evaluating : 4 ≤ evaluating
  /-- There is room for small values. -/
  eight_le_ready : 8 ≤ ready
  /-- There is room for flat documents. -/
  reading_pos : 0 < reading
  /-- With more of a tree left, there is no less room for a text. -/
  textsUnder_mono {m n : Nat} (h : m ≤ n) : textsUnder m ≤ textsUnder n
  /-- What can be made ready for JSON can be shown. -/
  ready_le_shown : ready ≤ shown
  /-- What can be made ready for JSON can be written. -/
  ready_le_writing : ready ≤ writing
  /-- What can be read can be written. -/
  reading_le_writing : reading ≤ writing

namespace Stack

theorem eight_le_writing [stack : Stack] : 8 ≤ stack.writing :=
  Nat.le_trans stack.eight_le_ready stack.ready_le_writing

theorem writing_pos [stack : Stack] : 0 < stack.writing :=
  Nat.lt_of_lt_of_le (by decide) eight_le_writing

/-- The stack that is left inside a tree with some levels left. -/
abbrev under [stack : Stack] (levels : Nat) : Stack :=
  { stack with texts := stack.textsUnder levels }

/-- A stack with room for a thousand calls, as walks usually share it. -/
abbrev usual : Stack where
  parsing := 100
  evaluating := 1000
  texts := 330
  textsUnder levels := levels / 3
  shown := 1000
  ready := 490
  writing := 1000
  reading := 1000
  four_le_parsing := by decide
  four_le_evaluating := by decide
  eight_le_ready := by decide
  reading_pos := by decide
  textsUnder_mono := Nat.div_le_div_right
  ready_le_shown := by decide
  ready_le_writing := by decide
  reading_le_writing := by decide

end Stack

end MockApi
