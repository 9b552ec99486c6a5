import MockApi.Proofs.Outcome

/-!
# Guarded runs

Some steps have a result only if something is known beforehand: there is an item at the index, an
entry under the key, a divisor other than zero, an end to the loop. A guarded run makes these steps
visible. It stops with a fault where such a step has no result, and all that it stops with otherwise
is an error that is declared. A run that agrees with a computation whose errors are all declared
never comes to a fault.
-/

namespace MockApi.Guarded

/-- A step that has no result. -/
inductive Fault
  /-- There is no token at the index. -/
  | noToken (index : Nat)
  /-- There is no code point at the index. -/
  | noCodePoint (index : Nat)
  /-- There is no item at the index. -/
  | noItem (index : Nat)
  /-- Nothing is bound to the name. -/
  | notInScope (name : Text)
  /-- No operator is spelled so. -/
  | noOperator (spelling : Text)
  /-- Something is divided by zero. -/
  | zeroDivisor
  /-- A loop goes on beyond its bound. -/
  | endless
deriving DecidableEq, Repr

/-- Why a guarded run stops without a result. -/
inductive Stop (ε : Type)
  /-- With an error that is declared. -/
  | declared (error : ε)
  /-- With a fault. -/
  | fault (fault : Fault)
deriving Repr

/-- A run that may stop with a fault. -/
abbrev Run (ε α : Type) := Except (Stop ε) α

variable {ε α β : Type}

/-- A computation as a run: its errors are all declared. -/
def declare (x : Except ε α) : Run ε α := x.mapError .declared

@[simp] theorem declare_ok (a : α) : declare (.ok a : Except ε α) = .ok a := rfl

@[simp] theorem declare_bind (x : Except ε α) (f : α → Except ε β) :
    declare (x >>= f) = declare x >>= fun a ↦ declare (f a) := by
  rcases x with error | a <;> rfl

@[simp] theorem declare_map (x : Except ε α) (f : α → β) :
    declare (x.map f) = (declare x).map f := by
  rcases x with error | a <;> rfl

/-- The item at an index, or a fault. -/
def itemAt (items : List α) (fault : Nat → Fault) (i : Nat) : Run ε α :=
  match items[i]? with
  | some item => .ok item
  | none => .error (.fault (fault i))

section Drop

variable {items rest : List α} {i : Nat} {item : α}

theorem lt_length_of_drop (h : items.drop i = item :: rest) : i < items.length := by
  rw [← Nat.not_le, ← List.drop_eq_nil_iff, h]
  exact List.cons_ne_nil item rest

theorem drop_succ_of_drop (h : items.drop i = item :: rest) : items.drop (i + 1) = rest := by
  rw [← List.tail_drop, h, List.tail_cons]

/-- An index has an item if something is left from there on. -/
theorem itemAt_of_drop (h : items.drop i = item :: rest) (fault : Nat → Fault) :
    (itemAt items fault i : Run ε α) = .ok item := by
  have hitem : items[i]? = some item := by
    rw [← List.head?_drop, h]
    rfl
  rw [itemAt, hitem]

end Drop

end MockApi.Guarded
