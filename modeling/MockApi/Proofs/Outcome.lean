import Mathlib.Data.List.Forall2
import MockApi.Failure

/-!
# Outcomes of steps

A computation in `Except` goes on while its steps succeed and ends with the first failure. These are
the rules by which the other modules take such computations apart.
-/

namespace MockApi

variable {ε α β : Type}

@[simp] theorem ok_bind (a : α) (f : α → Except ε β) : (Except.ok a >>= f) = f a := rfl

@[simp] theorem error_bind (e : ε) (f : α → Except ε β) :
    ((Except.error e : Except ε α) >>= f) = .error e := rfl

@[simp] theorem pure_eq_ok (a : α) : (pure a : Except ε α) = .ok a := rfl

@[simp] theorem throw_eq_error (e : ε) : (throw e : Except ε α) = .error e := rfl

theorem bind_eq_ok_iff {x : Except ε α} {f : α → Except ε β} {b : β} :
    x >>= f = .ok b ↔ ∃ a, x = .ok a ∧ f a = .ok b := by
  cases x with
  | error e => simp
  | ok a => simp

theorem bind_eq_error_iff {x : Except ε α} {f : α → Except ε β} {e : ε} :
    x >>= f = .error e ↔ x = .error e ∨ ∃ a, x = .ok a ∧ f a = .error e := by
  cases x with
  | error e => simp
  | ok a => simp

theorem map_eq_ok_iff {x : Except ε α} {f : α → β} {b : β} :
    x.map f = .ok b ↔ ∃ a, x = .ok a ∧ f a = b := by
  cases x with
  | error e => simp [Except.map]
  | ok a => simp [Except.map]

@[simp] theorem mapError_ok {ε' : Type} (a : α) (f : ε → ε') :
    (Except.ok a : Except ε α).mapError f = .ok a := rfl

theorem mapError_eq_ok_iff {ε' : Type} {x : Except ε α} {f : ε → ε'} {a : α} :
    x.mapError f = .ok a ↔ x = .ok a := by
  cases x with
  | error e => simp [Except.mapError]
  | ok b => simp [Except.mapError]

theorem mapError_eq_error_iff {ε' : Type} {x : Except ε α} {f : ε → ε'} {e : ε'} :
    x.mapError f = .error e ↔ ∃ e', x = .error e' ∧ f e' = e := by
  cases x with
  | error e => simp [Except.mapError]
  | ok b => simp [Except.mapError]

/-- What is done with a result does not matter for whether there is one. -/
theorem exists_bind_ok_eq_ok_iff {x : Except ε α} {g : α → β} :
    (∃ b, (x >>= fun a ↦ Except.ok (g a)) = .ok b) ↔ ∃ a, x = .ok a := by
  cases x with
  | error e => simp
  | ok a => simp

/-- If the second step succeeds or fails whatever the first one gives, the two can be told apart. -/
theorem exists_bind_eq_ok_iff {x : Except ε α} {f : α → Except ε β} {p : Prop}
    (h : ∀ a, (∃ b, f a = .ok b) ↔ p) : (∃ b, x >>= f = .ok b) ↔ (∃ a, x = .ok a) ∧ p := by
  cases x with
  | error e => simp
  | ok a => simpa using h a

/-! ## Success under a condition -/

open Classical in
/-- The result `a` if `p` holds, and the failure `e` otherwise. -/
noncomputable def okIf (p : Prop) (e : ε) (a : α) : Except ε α := if p then .ok a else .error e

variable {p q : Prop} {e : ε} {a : α} {b : β}

theorem okIf_of (h : p) : okIf p e a = .ok a := if_pos h

theorem okIf_of_not (h : ¬p) : okIf p e a = .error e := if_neg h

/-- Two steps with conditions succeed under both. -/
theorem okIf_bind {f : α → Except ε β} (h : f a = okIf q e b) :
    okIf p e a >>= f = okIf (p ∧ q) e b := by
  by_cases hp : p
  · by_cases hq : q
    · rw [okIf_of hp, okIf_of ⟨hp, hq⟩, ok_bind, h, okIf_of hq]
    · rw [okIf_of hp, okIf_of_not fun hand ↦ hq hand.2, ok_bind, h, okIf_of_not hq]
  · rw [okIf_of_not hp, okIf_of_not fun hand ↦ hp hand.1, error_bind]

/-- What is done with the result of a step keeps the condition. -/
theorem okIf_bind_ok {f : α → Except ε β} (h : f a = .ok b) :
    okIf p e a >>= f = okIf p e b := by
  rw [okIf_bind (h.trans (okIf_of trivial).symm), and_true]

/-! ## Lists of steps -/

variable {f : α → Except ε β} {xs : List α} {ys : List β}

/-- A list of steps succeeds with the results of its steps in order. -/
theorem mapM_eq_ok_iff : xs.mapM f = .ok ys ↔ List.Forall₂ (fun x y ↦ f x = .ok y) xs ys := by
  induction xs generalizing ys with
  | nil => simp [eq_comm]
  | cons x xs ih =>
    rw [List.mapM_cons, bind_eq_ok_iff, List.forall₂_cons_left_iff]
    constructor
    · rintro ⟨y, hy, h⟩
      obtain ⟨ys', hys, hresult⟩ := bind_eq_ok_iff.mp h
      cases hresult
      exact ⟨y, ys', hy, ih.mp hys, rfl⟩
    · rintro ⟨y, ys', hy, hys, rfl⟩
      exact ⟨y, hy, bind_eq_ok_iff.mpr ⟨ys', ih.mpr hys, rfl⟩⟩

/-- A list of steps succeeds if and only if all its steps do. -/
theorem exists_mapM_eq_ok_iff : (∃ ys, xs.mapM f = .ok ys) ↔ ∀ x ∈ xs, ∃ y, f x = .ok y := by
  induction xs with
  | nil => simp
  | cons x xs ih =>
    rw [List.forall_mem_cons, ← ih]
    constructor
    · rintro ⟨ys, h⟩
      obtain ⟨y, ys', hy, hys, rfl⟩ := List.forall₂_cons_left_iff.mp (mapM_eq_ok_iff.mp h)
      exact ⟨⟨y, hy⟩, ys', mapM_eq_ok_iff.mpr hys⟩
    · rintro ⟨⟨y, hy⟩, ys, hys⟩
      exact ⟨y :: ys, mapM_eq_ok_iff.mpr (.cons hy (mapM_eq_ok_iff.mp hys))⟩

/-- A list of steps succeeds with results of some kind if and only if each step does. -/
theorem exists_mapM_eq_ok_and_iff {p : β → Prop} :
    (∃ ys, xs.mapM f = .ok ys ∧ ∀ y ∈ ys, p y) ↔ ∀ x ∈ xs, ∃ y, f x = .ok y ∧ p y := by
  induction xs with
  | nil => simp
  | cons x xs ih =>
    rw [List.forall_mem_cons, ← ih]
    constructor
    · rintro ⟨ys, h, hys⟩
      obtain ⟨y, ys', hy, hys', rfl⟩ := List.forall₂_cons_left_iff.mp (mapM_eq_ok_iff.mp h)
      obtain ⟨hp, hps⟩ := List.forall_mem_cons.mp hys
      exact ⟨⟨y, hy, hp⟩, ys', mapM_eq_ok_iff.mpr hys', hps⟩
    · rintro ⟨⟨y, hy, hp⟩, ys, hys, hps⟩
      exact ⟨y :: ys, mapM_eq_ok_iff.mpr (.cons hy (mapM_eq_ok_iff.mp hys)),
        List.forall_mem_cons.mpr ⟨hp, hps⟩⟩

/-- A list of steps that all succeed has the results one by one. -/
theorem mapM_eq_ok_map {g : α → β} (h : ∀ x ∈ xs, f x = .ok (g x)) :
    xs.mapM f = .ok (xs.map g) := by
  rw [mapM_eq_ok_iff, List.forall₂_map_right_iff, List.forall₂_same]
  exact h

/-- The failure of a list of steps is that of one of them. -/
theorem exists_of_mapM_eq_error {e : ε} (h : xs.mapM f = .error e) : ∃ x ∈ xs, f x = .error e := by
  induction xs with
  | nil => cases h
  | cons x xs ih =>
    rw [List.mapM_cons] at h
    rcases bind_eq_error_iff.mp h with hx | ⟨y, -, h⟩
    · exact ⟨x, List.mem_cons_self, hx⟩
    · rcases bind_eq_error_iff.mp h with hxs | ⟨ys, -, h⟩
      · obtain ⟨x', hmem, hx'⟩ := ih hxs
        exact ⟨x', List.mem_cons_of_mem x hmem, hx'⟩
      · cases h

/-- What holds of all results of a list of steps, told by what the steps start from. -/
theorem forall_mem_iff_of_mapM {p : β → Prop} {q : α → Prop} (h : xs.mapM f = .ok ys)
    (hstep : ∀ x y, f x = .ok y → (p y ↔ q x)) : (∀ y ∈ ys, p y) ↔ ∀ x ∈ xs, q x := by
  replace h := mapM_eq_ok_iff.mp h
  induction h with
  | nil => simp
  | cons hxy _ ih =>
    rw [List.forall_mem_cons, List.forall_mem_cons]
    exact and_congr (hstep _ _ hxy) ih

/-! ## Steps one after another -/

section Steps

variable {step : β → α → Except ε β} {b b' : β} {p : β → Prop}

/-- What every step keeps is kept by all of them. -/
theorem foldlM_invariant (hkeep : ∀ b x b', p b → step b x = .ok b' → p b') (hb : p b)
    (h : xs.foldlM step b = .ok b') : p b' := by
  induction xs generalizing b with
  | nil =>
    cases h
    exact hb
  | cons x xs ih =>
    rw [List.foldlM_cons] at h
    obtain ⟨next, hstep, h⟩ := bind_eq_ok_iff.mp h
    exact ih (hkeep b x next hb hstep) h

/-- What one step brings about and every step keeps holds in the end. -/
theorem foldlM_establishes {x : α} (hmem : x ∈ xs) (hset : ∀ b b', step b x = .ok b' → p b')
    (hkeep : ∀ b x b', p b → step b x = .ok b' → p b') (h : xs.foldlM step b = .ok b') : p b' := by
  obtain ⟨before, rest, rfl⟩ := List.append_of_mem hmem
  rw [List.foldlM_append] at h
  obtain ⟨middle, -, h⟩ := bind_eq_ok_iff.mp h
  rw [List.foldlM_cons] at h
  obtain ⟨next, hstep, h⟩ := bind_eq_ok_iff.mp h
  exact foldlM_invariant hkeep (hset middle next hstep) h

/-- The failure of a run is that of one of its steps. -/
theorem exists_of_foldlM_eq_error {e : ε} (h : xs.foldlM step b = .error e) :
    ∃ b x, step b x = .error e := by
  induction xs generalizing b with
  | nil => cases h
  | cons x xs ih =>
    rw [List.foldlM_cons] at h
    rcases bind_eq_error_iff.mp h with hstep | ⟨next, -, h⟩
    · exact ⟨b, x, hstep⟩
    · exact ih h

end Steps

/-! ## Two computations side by side -/

/-- Two computations that fail alike or have results that are in a relation. -/
inductive Agree {γ : Type} (r : α → γ → Prop) : Except ε α → Except ε γ → Prop
  /-- Both fail with the same failure. -/
  | error (e : ε) : Agree r (.error e) (.error e)
  /-- Both have results. -/
  | ok {a : α} {c : γ} (h : r a c) : Agree r (.ok a) (.ok c)

namespace Agree

variable {γ δ : Type} {r : α → γ → Prop} {s : β → δ → Prop}

theorem refl {r : α → α → Prop} (h : ∀ a, r a a) (x : Except ε α) : Agree r x x := by
  cases x with
  | error e => exact .error e
  | ok a => exact .ok (h a)

theorem trans {r : α → α → Prop} (hr : ∀ a b c, r a b → r b c → r a c) {x y z : Except ε α}
    (h : Agree r x y) (h' : Agree r y z) : Agree r x z := by
  cases h with
  | error e => exact h'
  | ok h =>
    cases h' with
    | ok h' => exact .ok (hr _ _ _ h h')

theorem bind {x : Except ε α} {y : Except ε γ} {f : α → Except ε β} {g : γ → Except ε δ}
    (h : Agree r x y) (hnext : ∀ a c, r a c → Agree s (f a) (g c)) :
    Agree s (x >>= f) (y >>= g) := by
  cases h with
  | error e => exact .error e
  | ok h => exact hnext _ _ h

/-- Lists of steps that agree one by one agree. -/
theorem mapM {xs : List α} {ys : List γ} {f : α → Except ε β} {g : γ → Except ε δ}
    (h : List.Forall₂ (fun x y ↦ Agree s (f x) (g y)) xs ys) :
    Agree (List.Forall₂ s) (xs.mapM f) (ys.mapM g) := by
  induction h with
  | nil => exact .ok .nil
  | cons hstep _ ih =>
    rw [List.mapM_cons, List.mapM_cons]
    exact hstep.bind fun _ _ hab ↦ ih.bind fun _ _ habs ↦ .ok (.cons hab habs)

end Agree

end MockApi
