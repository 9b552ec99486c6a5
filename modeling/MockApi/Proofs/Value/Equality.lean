import MockApi.Proofs.Number.Order
import MockApi.Proofs.Value.Texts
import MockApi.Value.Equality

/-!
# Loose equality as a relation

Loose equality is told by a table of kinds. Values of one kind are compared strictly, nullish values
equal each other alone, and a number and a text are compared as numbers; in every other case one
value is coerced and the table is asked again. A coercion leaves fewer values to be coerced, so that
the table comes to an answer after two coercions at most, and the two orders of the operands, which
take different ways through it, come to the same answer.

The one obstacle is a list inside lists beyond the limit, which has no text to be coerced to.
-/

namespace MockApi.Value

variable {stack : Stack}

/-! ## The table of kinds -/

/-- How many times a value can be coerced: once if it is a truth value or a container. -/
def coercions : Value → Nat
  | bool _ | list .. | object .. => 1
  | _ => 0

/-- Equality after coercion by the table of kinds: truth values are coerced to numbers first, then
containers to texts, the left operand before the right one. -/
def equalsByKind [Stack] (a b : Value) : Except Failure Bool :=
  if a.kind = b.kind then .ok (a.strictEquals b)
  else if a.isNullish || b.isNullish then .ok (a.isNullish && b.isNullish)
  else match a, b with
    | bool p, b => equalsByKind (bool p).boolAsNumber b
    | a, bool q => equalsByKind a (bool q).boolAsNumber
    | number x, text t => .ok (x.equals (numberOfText t))
    | text s, number y => .ok ((numberOfText s).equals y)
    | a, b =>
      if _ : a.isContainer then do equalsByKind (text (← a.toText)) b
      else if _ : b.isContainer then do equalsByKind a (text (← b.toText))
      else .ok false
termination_by a.coercions + b.coercions
decreasing_by
  · simp [coercions, boolAsNumber, int]
  · simp [coercions, boolAsNumber, int]
  · cases a <;> simp_all [coercions, isContainer]
  · cases b <;> simp_all [coercions, isContainer]

/-- Between values that are not nullish, loose equality is that of what they are coerced to, unless
two of them that could be coerced are of one kind. -/
theorem looseEquals_eq_bind {a b : Value} (ha : a.isNullish = false) (hb : b.isNullish = false)
    (h : a.kind ≠ b.kind ∨ a.coercions = 0) : a.looseEquals b =
      a.boolAsNumber.toPrimitive >>= fun a ↦ b.boolAsNumber.toPrimitive >>= fun b ↦
        .ok (scalarEquals a b) := by
  unfold looseEquals
  by_cases hkind : a.kind = b.kind
  · rw [if_pos hkind]
    have hplain := h.resolve_left (not_not_intro hkind)
    cases a with
    | null | undefined => cases ha
    | bool | list | object => cases hplain
    | number x =>
      cases b with
      | number y => rfl
      | _ => cases hkind
    | text s =>
      cases b with
      | text t => rfl
      | _ => cases hkind
  · rw [if_neg hkind, ha, hb]
    rfl

theorem boolAsNumber_of_container {value : Value} (h : value.isContainer = true) :
    value.boolAsNumber = value := by
  cases value with
  | bool => cases h
  | _ => rfl

/-- What cannot be coerced is left alone. -/
theorem toPrimitive_boolAsNumber {value : Value} (h : value.coercions = 0) :
    value.boolAsNumber.toPrimitive = .ok value := by
  cases value with
  | bool | list | object => cases h
  | _ => rfl

/-- The table of kinds comes to an answer, and that is loose equality. -/
theorem equalsByKind_eq (a b : Value) : a.equalsByKind b = a.looseEquals b := by
  fun_induction equalsByKind a b with
  | case1 a b hkind => exact (looseEquals_of_kind_eq hkind).symm
  | case2 a b hkind hnullish => rw [looseEquals, if_neg hkind, if_pos hnullish]
  | case3 b p hkind hnullish ih =>
    obtain ⟨-, hb⟩ := Bool.or_eq_false_iff.mp (Bool.eq_false_iff.mpr hnullish)
    rw [ih, looseEquals_eq_bind rfl hb (.inr rfl), looseEquals_eq_bind rfl hb (.inl hkind)]
    rfl
  | case4 a q hbool hkind hnullish ih =>
    obtain ⟨ha, -⟩ := Bool.or_eq_false_iff.mp (Bool.eq_false_iff.mpr hnullish)
    have hcoerce : a.kind ≠ (bool q).boolAsNumber.kind ∨ a.coercions = 0 := by
      cases a with
      | list | object => exact .inl (by simp [kind, boolAsNumber, int])
      | bool p => exact absurd rfl (hbool p)
      | _ => exact .inr rfl
    rw [ih, looseEquals_eq_bind ha rfl hcoerce, looseEquals_eq_bind ha rfl (.inl hkind)]
    rfl
  | case5 | case6 => rfl
  | case7 a b _ hbool _ _ hcontainer hkind hnullish ih =>
    obtain ⟨ha, hb⟩ := Bool.or_eq_false_iff.mp (Bool.eq_false_iff.mpr hnullish)
    rw [looseEquals_eq_bind ha hb (.inl hkind), boolAsNumber_of_container hcontainer,
      toPrimitive_of_container hcontainer]
    rcases a.toText with f | t
    · rfl
    · exact (ih t).trans (looseEquals_eq_bind rfl hb (.inr rfl))
  | case8 a b hbool _ _ _ hplain hcontainer hkind hnullish ih =>
    obtain ⟨ha, hb⟩ := Bool.or_eq_false_iff.mp (Bool.eq_false_iff.mpr hnullish)
    have hcoerce : a.coercions = 0 := by
      cases a with
      | list | object => exact absurd rfl hplain
      | bool p => exact absurd rfl (hbool p)
      | _ => rfl
    rw [looseEquals_eq_bind ha hb (.inl hkind), boolAsNumber_of_container hcontainer,
      toPrimitive_boolAsNumber hcoerce, toPrimitive_of_container hcontainer]
    rcases b.toText with f | t
    · rfl
    · rw [ok_bind, ih t, looseEquals_eq_bind ha rfl (.inr hcoerce),
        toPrimitive_boolAsNumber hcoerce]
      rfl
  | case9 a b hleft hright hnumber htext ha hb hkind hnullish =>
    -- no two plain values of different kinds are left
    exfalso
    cases a with
    | null | undefined => exact hnullish rfl
    | bool p => exact hleft p rfl
    | list | object => exact ha rfl
    | number x =>
      cases b with
      | null | undefined => exact hnullish rfl
      | bool q => exact hright q rfl
      | number y => exact hkind rfl
      | text t => exact hnumber x t rfl rfl
      | list | object => exact hb rfl
    | text s =>
      cases b with
      | null | undefined => exact hnullish rfl
      | bool q => exact hright q rfl
      | number y => exact htext s y rfl rfl
      | text t => exact hkind rfl
      | list | object => exact hb rfl

/-! ## Both orders -/

theorem strictEquals_comm (a b : Value) : a.strictEquals b = b.strictEquals a := by
  match a, b with
  | null, b | undefined, b => cases b <;> rfl
  | bool p, b =>
    cases b with
    | bool q => simp [strictEquals, eq_comm (a := p)]
    | _ => rfl
  | number x, b =>
    cases b with
    | number y => exact Number.equals_comm x y
    | _ => rfl
  | text s, b =>
    cases b with
    | text t => simp [strictEquals, eq_comm (a := s)]
    | _ => rfl
  | list identity _, b | object identity _, b =>
    cases b with
    | list other _ | object other _ =>
      simp [strictEquals, isContainer, identity?, eq_comm (a := identity)]
    | _ => rfl

theorem scalarEquals_comm (a b : Value) : scalarEquals a b = scalarEquals b a := by
  fun_cases scalarEquals a b with
  | case1 x t => exact Number.equals_comm x (numberOfText t)
  | case2 s y => exact Number.equals_comm (numberOfText s) y
  | case3 a b hnumber htext =>
    rw [scalarEquals.eq_3 b a (fun x t hb ha ↦ htext t x ha hb) (fun s y hb ha ↦ hnumber y s ha hb)]
    exact strictEquals_comm a b

/-- Of two values of different kinds, one is plain. -/
theorem exists_toPrimitive_of_kind_ne {a b : Value} (h : a.kind ≠ b.kind) :
    (∃ plain, a.boolAsNumber.toPrimitive = .ok plain) ∨
      ∃ plain, b.boolAsNumber.toPrimitive = .ok plain := by
  cases a with
  | list | object =>
    cases b with
    | list | object => exact absurd rfl h
    | _ => exact .inr ⟨_, rfl⟩
  | _ => exact .inl ⟨_, rfl⟩

/-- **Loose equality is symmetric**, in its failures too. -/
theorem looseEquals_comm (a b : Value) : a.looseEquals b = b.looseEquals a := by
  unfold looseEquals
  by_cases hkind : a.kind = b.kind
  · rw [if_pos hkind, if_pos hkind.symm, strictEquals_comm]
  · rw [if_neg hkind, if_neg (Ne.symm hkind), Bool.or_comm, Bool.and_comm]
    rcases @exists_toPrimitive_of_kind_ne stack _ _ hkind with ⟨plain, h⟩ | ⟨plain, h⟩
    · simp only [h, ok_bind, scalarEquals_comm plain]
    · simp only [h, ok_bind, scalarEquals_comm plain]

/-! ## Loose and strict equality -/

theorem kind_of_container {value : Value} (h : value.isContainer = true) :
    value.kind = .container := by
  cases value with
  | list | object => rfl
  | _ => cases h

theorem kind_eq_of_strictEquals {a b : Value} (h : a.strictEquals b = true) : a.kind = b.kind := by
  fun_cases strictEquals a b with
  | case1 | case2 | case3 | case4 | case5 => rfl
  | case6 a b hnull hundefined hbool hnumber htext =>
    rw [strictEquals.eq_6 a b hnull hundefined hbool hnumber htext, Bool.and_eq_true,
      Bool.and_eq_true] at h
    rw [kind_of_container h.1.1, kind_of_container h.1.2]

/-- Nullish values equal each other and nothing else. -/
theorem looseEquals_of_isNullish {a : Value} (h : a.isNullish = true) (b : Value) :
    a.looseEquals b = .ok b.isNullish := by
  cases a with
  | null | undefined => cases b <;> rfl
  | _ => cases h

theorem ShowsShortIntegers.boolAsNumber {value : Value} (h : value.ShowsShortIntegers) :
    value.boolAsNumber.ShowsShortIntegers := by
  cases value with
  | bool b => exact showsShortIntegers_int.mpr (by cases b <;> decide)
  | _ => exact h

theorem listedWithin_boolAsNumber {levels : Nat} {value : Value} :
    value.boolAsNumber.ListedWithin levels ↔ value.ListedWithin levels := by
  cases value with
  | bool b => exact iff_of_true (listedWithin_of_scalar rfl) (listedWithin_of_scalar rfl)
  | _ => exact Iff.rfl

/-- Two values that loose equality can tell about: they need no coercion, or both have a text. -/
def Comparable [Stack] (a b : Value) : Prop :=
  a.kind = b.kind ∨ a.isNullish ∨ b.isNullish ∨
    a.ListedWithin Stack.texts ∧ b.ListedWithin Stack.texts

theorem exists_looseEquals_of_comparable {a b : Value} (ha : a.ShowsShortIntegers)
    (hb : b.ShowsShortIntegers) (h : a.Comparable b) : ∃ answer, a.looseEquals b = .ok answer := by
  rcases h with hkind | hnullish | hnullish | ⟨hlista, hlistb⟩
  · exact ⟨_, looseEquals_of_kind_eq hkind⟩
  · exact ⟨_, looseEquals_of_isNullish hnullish b⟩
  · exact ⟨_, (looseEquals_comm a b).trans (looseEquals_of_isNullish hnullish a)⟩
  · obtain ⟨x, hx⟩ :=
      (exists_toPrimitive_iff ha.boolAsNumber).mpr (listedWithin_boolAsNumber.mpr hlista)
    obtain ⟨y, hy⟩ :=
      (exists_toPrimitive_iff hb.boolAsNumber).mpr (listedWithin_boolAsNumber.mpr hlistb)
    unfold looseEquals
    simp only [hx, hy, ok_bind, pure_eq_ok]
    split
    · exact ⟨_, rfl⟩
    · split <;> exact ⟨_, rfl⟩

theorem looseEquals_of_not_comparable {a b : Value} (ha : a.ShowsShortIntegers)
    (hb : b.ShowsShortIntegers) (h : ¬a.Comparable b) :
    a.looseEquals b = .error .nestingTooDeep := by
  simp only [Comparable, not_or, Bool.not_eq_true] at h
  obtain ⟨hkind, hnulla, hnullb, hlisted⟩ := h
  rw [looseEquals_eq_bind hnulla hnullb (.inl hkind)]
  refine toPrimitive_bind_eq_error ha.boolAsNumber hb.boolAsNumber ?_ fun a b ↦
    .ok (scalarEquals a b)
  rwa [listedWithin_boolAsNumber, listedWithin_boolAsNumber]

/-- **Loose equality is a symmetric relation coarser than strict equality.** For values with short
integers the table of kinds comes to an answer, unless the values are of different kinds, neither of
them is nullish and one is a list nested beyond the limit: that has no text to be coerced to, and
both orders fail for it. -/
theorem looseEquals_relation {a b : Value} (ha : a.HasShortIntegers) (hb : b.HasShortIntegers) :
    a.equalsByKind b = a.looseEquals b ∧
    a.looseEquals b = b.looseEquals a ∧
    (a.Comparable b → ∃ answer, a.looseEquals b = .ok answer) ∧
    (¬a.Comparable b → a.looseEquals b = .error .nestingTooDeep) ∧
    (a.strictEquals b = true → a.looseEquals b = .ok true) ∧
    (a.kind = b.kind → a.looseEquals b = .ok (a.strictEquals b)) ∧
    (a.isNullish = true → a.looseEquals b = .ok b.isNullish) := by
  have hshorta := ha.showsShortIntegers
  have hshortb := hb.showsShortIntegers
  refine ⟨equalsByKind_eq a b, looseEquals_comm a b,
    exists_looseEquals_of_comparable hshorta hshortb,
    looseEquals_of_not_comparable hshorta hshortb, fun h ↦ ?_, looseEquals_of_kind_eq,
    fun h ↦ looseEquals_of_isNullish h b⟩
  rw [looseEquals_of_kind_eq (kind_eq_of_strictEquals h), h]

/-- A list in a list has a text that writes a number, which a truth value equals from either
side. -/
theorem looseEquals_relation_list :
    letI : Stack := .usual
    (list 1 [list 2 [int 1]]).HasShortIntegers ∧ (bool true).HasShortIntegers ∧
      (list 1 [list 2 [int 1]]).Comparable (bool true) ∧
      (list 1 [list 2 [int 1]]).looseEquals (bool true) = .ok true ∧
      (list 1 [list 2 [int 1]]).looseEquals (bool true) =
        (bool true).looseEquals (list 1 [list 2 [int 1]]) ∧
      (list 1 [list 2 [int 1]]).equalsByKind (bool true) = .ok true := by
  have hlist : (list 1 [list 2 [int 1]]).HasShortIntegers := by
    have hone : IsShort 1 := by decide
    simpa only [hasShortIntegers_list, List.forall_mem_singleton, hasShortIntegers_int] using hone
  have hbool : (bool true).HasShortIntegers := hasShortIntegers_of_scalar rfl (by simp [int])
  obtain ⟨htable, hcomm, -⟩ := @looseEquals_relation .usual _ _ hlist hbool
  have hequal : @looseEquals .usual (list 1 [list 2 [int 1]]) (bool true) = .ok true := by
    decide +kernel
  obtain ⟨hlisted, -⟩ := (@exists_toText_iff .usual (list 1 [list 2 [int 1]])).mp ⟨_, rfl⟩
  exact ⟨hlist, hbool, .inr (.inr (.inr ⟨hlisted, listedWithin_of_scalar rfl⟩)), hequal, hcomm,
    htable.trans hequal⟩

/-- A list nested beyond the limit cannot be compared with a text. -/
theorem looseEquals_nested :
    letI : Stack := .usual
    (nested 3000).HasShortIntegers ∧ (text []).HasShortIntegers ∧
      (nested 3000).looseEquals (text []) = .error .nestingTooDeep := by
  have hnested := hasShortIntegers_nested 3000
  have htext : (text []).HasShortIntegers := hasShortIntegers_of_scalar rfl (by simp [int])
  refine ⟨hnested, htext, looseEquals_of_not_comparable hnested.showsShortIntegers
    htext.showsShortIntegers ?_⟩
  rintro (hkind | hnullish | hnullish | ⟨hlisted, -⟩)
  · cases hkind
  · cases hnullish
  · cases hnullish
  · exact absurd (listedWithin_nested.mp hlisted) (by decide)

end MockApi.Value
