import MockApi.Condition.Eval
import MockApi.Proofs.Condition.RoundTrip
import MockApi.Proofs.Outcome

/-!
# Levels of evaluation

A tree is worked out within a number of levels, which stand for the depth of the recursion, and the
values inside it are turned into texts within the levels that the tree has left. Running out of
either is one way to fail, and the only one that depends on their number: any other outcome stays
what it is with more levels. A tree may be high and yet compiled from a text without a single
parenthesis.
-/

namespace MockApi

variable {stack : Stack}

/-! ## Outcomes that are settled -/

/-- The second outcome is the first one, unless the first one is that the levels ran out. -/
def Settles {α : Type} (x y : Except Failure α) : Prop := x ≠ .error .nestingTooDeep → y = x

namespace Settles

variable {α β : Type} {x y z : Except Failure α}

theorem refl (x : Except Failure α) : Settles x x := fun _ ↦ rfl

theorem trans (h : Settles x y) (h' : Settles y z) : Settles x z := by
  intro hx
  have hy := h hx
  rw [← hy] at hx ⊢
  exact h' hx

/-- Steps that are settled one after the other are settled as a whole. -/
theorem bind {f g : α → Except Failure β} (h : Settles x y) (hnext : ∀ a, Settles (f a) (g a)) :
    Settles (x >>= f) (y >>= g) := by
  intro hdeep
  have hx : x ≠ .error .nestingTooDeep := by
    rintro rfl
    exact hdeep rfl
  rw [h hx]
  rcases x with error | a
  · rfl
  · exact hnext a hdeep

theorem map {f : α → β} (h : Settles x y) : Settles (x.map f) (y.map f) := by
  have hmap (x : Except Failure α) : x.map f = x >>= fun a ↦ .ok (f a) := by cases x <;> rfl
  rw [hmap, hmap]
  exact h.bind fun _ ↦ .refl _

theorem mapM {f g : α → Except Failure β} {l : List α} (h : ∀ a ∈ l, Settles (f a) (g a)) :
    Settles (l.mapM f) (l.mapM g) := by
  induction l with
  | nil => exact .refl _
  | cons a l ih =>
    rw [List.mapM_cons, List.mapM_cons]
    rw [List.forall_mem_cons] at h
    exact h.1.bind fun _ ↦ (ih h.2).bind fun _ ↦ .refl _

end Settles

/-! ## Room for texts -/

namespace Value

theorem settles_textWithin {levels levels' : Nat} (hle : levels ≤ levels') (value : Value) :
    Settles (value.textWithin levels) (value.textWithin levels') := by
  induction levels generalizing levels' value with
  | zero =>
    cases value with
    | list => exact fun hdeep ↦ absurd rfl hdeep
    | _ => cases levels' <;> exact .refl _
  | succ levels ih =>
    obtain ⟨k, rfl⟩ : ∃ k, levels' = k + 1 := ⟨levels' - 1, by omega⟩
    cases value with
    | list identity items =>
      refine Settles.bind (.mapM fun item _ ↦ ?_) fun _ ↦ .refl _
      split
      · exact .refl _
      · exact ih (Nat.le_of_succ_le_succ hle) item
    | _ => exact .refl _

variable {less more : Stack} (hle : less.texts ≤ more.texts)
include hle

theorem settles_toText (value : Value) : Settles (@toText less value) (@toText more value) :=
  settles_textWithin hle value

theorem settles_toPrimitive (value : Value) :
    Settles (@toPrimitive less value) (@toPrimitive more value) := by
  unfold toPrimitive
  split
  · exact (settles_toText hle value).map
  · exact .refl _

theorem settles_toNumber (value : Value) :
    Settles (@toNumber less value) (@toNumber more value) := by
  cases value with
  | list | object => exact (settles_toText hle _).map
  | _ => exact .refl _

theorem settles_property (target key : Value) :
    Settles (@property less target key) (@property more target key) :=
  (settles_toText hle key).bind fun _ ↦ .refl _

theorem settles_add (a b : Value) : Settles (@add less a b) (@add more a b) := by
  refine (settles_toPrimitive hle a).bind fun a ↦ (settles_toPrimitive hle b).bind fun b ↦ ?_
  split
  · exact (settles_toText hle _).bind fun _ ↦ .refl _
  · exact (settles_toText hle _).bind fun _ ↦ .refl _
  · exact (settles_toNumber hle _).bind fun _ ↦ (settles_toNumber hle _).bind fun _ ↦ .refl _

theorem settles_arithmetic (op : ArithmeticOp) (a b : Value) :
    Settles (@arithmetic less op a b) (@arithmetic more op a b) :=
  (settles_toNumber hle a).bind fun _ ↦ (settles_toNumber hle b).bind fun _ ↦ .refl _

theorem settles_looseEquals (a b : Value) :
    Settles (@looseEquals less a b) (@looseEquals more a b) := by
  unfold looseEquals
  split
  · exact .refl _
  · split
    · exact .refl _
    · exact (settles_toPrimitive hle _).bind fun _ ↦
        (settles_toPrimitive hle _).bind fun _ ↦ .refl _

theorem settles_compare (relation : Relation) (a b : Value) :
    Settles (@compare less relation a b) (@compare more relation a b) := by
  refine Settles.bind ?_ fun _ ↦ .refl _
  refine (settles_toPrimitive hle a).bind fun a ↦ (settles_toPrimitive hle b).bind fun b ↦ ?_
  split
  · exact .refl _
  · exact (settles_toNumber hle _).bind fun _ ↦ (settles_toNumber hle _).bind fun _ ↦ .refl _

end Value

section Operators

variable {less more : Stack} (hle : less.texts ≤ more.texts)
include hle

theorem UnaryOp.settles_apply (op : UnaryOp) (value : Value) :
    Settles (@UnaryOp.apply less op value) (@UnaryOp.apply more op value) := by
  match op with
  | .not => exact .refl _
  | .negate | .plus => exact (Value.settles_toNumber hle value).map

theorem BinaryOp.settles_apply (op : BinaryOp) (a b : Value) :
    Settles (@BinaryOp.apply less op a b) (@BinaryOp.apply more op a b) := by
  match op with
  | .strictEqual | .strictUnequal => exact .refl _
  | .looseEqual | .looseUnequal => exact (Value.settles_looseEquals hle a b).map
  | .relation r => exact (Value.settles_compare hle r a b).map
  | .add => exact Value.settles_add hle a b
  | .arithmetic op => exact (Value.settles_arithmetic hle op a b).map

end Operators

namespace Expr

variable {bindings : Bindings}

theorem settles_evaluateWithin_succ (levels : Nat) (e : Expr) :
    Settles (e.evaluateWithin bindings levels) (e.evaluateWithin bindings (levels + 1)) := by
  induction levels generalizing e with
  | zero => exact fun hdeep ↦ absurd rfl hdeep
  | succ levels ih =>
    have hroom : (Stack.under levels).texts ≤ (Stack.under (levels + 1)).texts :=
      stack.textsUnder_mono (Nat.le_succ levels)
    match e with
    | literal value => exact .refl _
    | name n => exact .refl _
    | member target key =>
      exact (ih target).bind fun _ ↦ (ih key).bind fun _ ↦ Value.settles_property hroom _ _
    | unary op operand => exact (ih operand).bind fun _ ↦ UnaryOp.settles_apply hroom _ _
    | logical op left right =>
      refine (ih left).bind fun value ↦ (Settles.refl value.truthy).bind fun holds ↦ ?_
      match op, holds with
      | .and, true | .or, false => exact ih right
      | .and, false | .or, true => exact .refl _
    | binary op left right =>
      exact (ih left).bind fun _ ↦ (ih right).bind fun _ ↦ BinaryOp.settles_apply hroom _ _ _

/-- More levels change nothing but the outcome that they ran out. -/
theorem settles_evaluateWithin {levels levels' : Nat} (hle : levels ≤ levels') (e : Expr) :
    Settles (e.evaluateWithin bindings levels) (e.evaluateWithin bindings levels') := by
  induction hle with
  | refl => exact .refl _
  | step _ ih => exact ih.trans (settles_evaluateWithin_succ _ e)

/-- There is always room for a small tree. -/
theorem evaluate_of_evaluateWithin_four {e : Expr} {value : Value}
    (h : e.evaluateWithin bindings 4 = .ok value) : e.evaluate bindings = .ok value := by
  have hdeep : e.evaluateWithin bindings 4 ≠ .error .nestingTooDeep := by simp [h]
  rw [evaluate, settles_evaluateWithin Stack.four_le_evaluating e hdeep, h]

/-! ## High trees -/

/-- A conjunction of trues, with so many connectives, from the left. -/
def conjunction : Nat → Expr
  | 0 => literal (.bool true)
  | count + 1 => logical .and (conjunction count) (literal (.bool true))

/-- A conjunction takes one level more than it has connectives. -/
theorem evaluateWithin_conjunction (levels count : Nat) :
    (conjunction count).evaluateWithin bindings levels =
      if levels ≤ count then .error .nestingTooDeep else .ok (.bool true) := by
  induction levels generalizing count with
  | zero => rfl
  | succ levels ih =>
    rcases count with _ | count
    · rfl
    · rw [conjunction, evaluateWithin, ih]
      by_cases hle : levels ≤ count
      · rw [if_pos hle, if_pos (Nat.succ_le_succ hle)]
        rfl
      · -- the last literal has a level left
        obtain ⟨k, rfl⟩ : ∃ k, levels = k + 1 := Nat.exists_eq_succ_of_ne_zero (by omega)
        rw [if_neg hle, if_neg (by omega)]
        rfl

/-- A conjunction is printed with no parentheses, and it is no deeper than one literal. -/
theorem print_conjunction (count : Nat) :
    (conjunction count).Printable ∧ (conjunction count).nesting = 1 ∧
    (conjunction count).kind.Fits (.chain .and) ∧ (conjunction count).print [] =
      Text.ofString "true" ++ (List.replicate count (Text.ofString "&&true")).flatten := by
  induction count with
  | zero => exact ⟨trivial, rfl, by decide, rfl⟩
  | succ count ih =>
    obtain ⟨hprintable, hnesting, hfits, hprint⟩ := ih
    refine ⟨⟨hprintable, trivial⟩, ?_, Nat.le_refl _, ?_⟩
    · have hleft : (conjunction count).kind.enclosedNesting (.chain .and)
          (conjunction count).nesting = 1 := (if_pos hfits).trans hnesting
      exact congrArg (max · 1) hleft
    · have hleft : (conjunction count).kind.enclose (.chain .and) ((conjunction count).print []) =
          Text.ofString "true" ++ (List.replicate count (Text.ofString "&&true")).flatten :=
        (if_pos hfits).trans hprint
      rw [List.replicate_succ', List.flatten_append, List.flatten_singleton, ← List.append_assoc]
      exact congrArg (· ++ Text.ofString "&&true") hleft

end Expr

end MockApi
