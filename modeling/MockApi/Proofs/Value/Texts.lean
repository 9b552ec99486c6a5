import MockApi.Proofs.Value.Writing
import MockApi.Value.Coercion

/-!
# Which values have a text

The text of a value by itself is less than its JSON: a list shows its items, and those of the lists
among them, while an object shows only that it is one. So two things stand in the way of a text, an
integer with too many digits that is shown, and lists inside lists beyond the limit; what an object
holds does not matter. A failure tells which of the two it was.

Keys, operands of comparisons and operands of arithmetic all go through this text if they are
containers.
-/

namespace MockApi.Value

variable {stack : Stack}

/-- A value is shown in the text of another one: it is the same, or shown in an item of a list. -/
inductive ShownIn : Value → Value → Prop
  | refl (value : Value) : ShownIn value value
  | item {part item : Value} {identity : Nat} {items : List Value} (hitem : item ∈ items)
      (h : ShownIn part item) : ShownIn part (.list identity items)

/-- Lists stand inside lists no more than `levels` deep. -/
def ListedWithin : Nat → Value → Prop
  | 0, list .. => False
  | levels + 1, list _ items => ∀ item ∈ items, ListedWithin levels item
  | _, _ => True

/-- All integers that are shown in the text of a value are short. -/
def ShowsShortIntegers (value : Value) : Prop := ∀ ⦃n⦄, ShownIn (.int n) value → IsShort n

/-- A value that has a text. -/
structure HasText [Stack] (value : Value) : Prop where
  /-- Lists are not nested beyond the limit. -/
  listed : value.ListedWithin Stack.texts
  /-- No integer that is shown has too many digits. -/
  short : value.ShowsShortIntegers

theorem hasText_iff {value : Value} :
    value.HasText ↔ value.ListedWithin Stack.texts ∧ value.ShowsShortIntegers :=
  ⟨fun h ↦ ⟨h.listed, h.short⟩, fun h ↦ ⟨h.1, h.2⟩⟩

theorem ShownIn.partOf {part value : Value} (h : ShownIn part value) : PartOf part value := by
  induction h with
  | refl => exact .refl _
  | item hitem _ ih => exact .item hitem ih

theorem HasShortIntegers.showsShortIntegers {value : Value} (h : value.HasShortIntegers) :
    value.ShowsShortIntegers :=
  fun _ hn ↦ h hn.partOf

theorem listedWithin_of_scalar {levels : Nat} {value : Value}
    (hcontainer : value.isContainer = false) : value.ListedWithin levels := by
  cases value with
  | list => cases hcontainer
  | _ => cases levels <;> trivial

theorem showsShortIntegers_list {identity : Nat} {items : List Value} :
    (list identity items).ShowsShortIntegers ↔ ∀ item ∈ items, item.ShowsShortIntegers := by
  constructor
  · exact fun h item hitem n hn ↦ h (.item hitem hn)
  · intro h n hn
    cases hn with
    | item hitem hn => exact h _ hitem hn

theorem showsShortIntegers_int {n : Int} : (int n).ShowsShortIntegers ↔ IsShort n := by
  constructor
  · exact fun h ↦ h (.refl _)
  · intro h m hm
    cases hm with
    | refl => exact h

/-- Values other than integers and lists show no integers. -/
theorem showsShortIntegers_of_ne {value : Value}
    (hlist : ∀ identity items, value ≠ .list identity items) (hint : ∀ n, value ≠ int n) :
    value.ShowsShortIntegers := by
  intro n hn
  generalize hpart : int n = part at hn
  cases hn with
  | refl => exact absurd hpart.symm (hint n)
  | item => exact absurd rfl (hlist _ _)

/-- Values other than lists have a text unless they are long integers. -/
theorem exists_textWithin_of_ne_list {levels : Nat} {value : Value}
    (hlist : ∀ identity items, value ≠ .list identity items) :
    (∃ t, value.textWithin levels = .ok t) ↔ value.ShowsShortIntegers := by
  cases value with
  | list identity items => exact absurd rfl (hlist identity items)
  | number x =>
    cases x with
    | int n =>
      rw [← int, showsShortIntegers_int, ← integerText_eq_ok_iff]
      simp [int, textWithin, Number.write]
    | double x =>
      refine iff_of_true ?_ (showsShortIntegers_of_ne hlist (by simp [int]))
      simp [textWithin, Number.write]
  | _ =>
    refine iff_of_true ?_ (showsShortIntegers_of_ne hlist (by simp [int]))
    simp [textWithin]

/-- **Which values have a text within some levels.** -/
theorem exists_textWithin_eq_ok_iff {levels : Nat} {value : Value} :
    (∃ t, value.textWithin levels = .ok t) ↔
      value.ListedWithin levels ∧ value.ShowsShortIntegers := by
  induction levels generalizing value with
  | zero =>
    cases value with
    | list identity items => simp [textWithin, ListedWithin]
    | _ =>
      rw [exists_textWithin_of_ne_list (by simp)]
      simp [ListedWithin]
  | succ levels ih =>
    cases value with
    | list identity items =>
      have hitem (item : Value) :
          (∃ t, (if item.isNullish then pure [] else textWithin levels item) = .ok t) ↔
            item.ListedWithin levels ∧ item.ShowsShortIntegers := by
        -- nullish items show nothing, but would have a text as well
        rw [← ih]
        cases item <;> simp [isNullish, textWithin]
      simp only [textWithin, pure_eq_ok, exists_bind_ok_eq_ok_iff, exists_mapM_eq_ok_iff,
        ListedWithin, showsShortIntegers_list, ← forall_and]
      exact forall₂_congr fun item _ ↦ hitem item
    | _ =>
      rw [exists_textWithin_of_ne_list (by simp)]
      simp [ListedWithin]

/-- **Which values have a text.** -/
theorem exists_toText_iff {value : Value} : (∃ t, value.toText = .ok t) ↔ value.HasText :=
  exists_textWithin_eq_ok_iff.trans hasText_iff.symm

/-- Nothing but nesting fails where the integers are short. -/
theorem eq_nestingTooDeep_of_textWithin {levels : Nat} {value : Value} {f : Failure}
    (h : value.textWithin levels = .error f) (hshort : value.ShowsShortIntegers) :
    f = .nestingTooDeep := by
  have hother {levels : Nat} {value : Value} (h : value.textWithin levels = .error f)
      (hshort : value.ShowsShortIntegers) (hne : ∀ identity items, value ≠ .list identity items) :
      f = .nestingTooDeep := by
    obtain ⟨t, ht⟩ := (exists_textWithin_of_ne_list hne).mpr hshort
    rw [ht] at h
    cases h
  induction levels generalizing value with
  | zero =>
    cases value with
    | list identity items =>
      cases h
      rfl
    | _ => exact hother h hshort (by simp)
  | succ levels ih =>
    cases value with
    | list identity items =>
      rcases bind_eq_error_iff.mp h with hitems | ⟨texts, -, htexts⟩
      · obtain ⟨item, hitem, hfailure⟩ := exists_of_mapM_eq_error hitems
        split at hfailure
        · cases hfailure
        · exact ih hfailure (showsShortIntegers_list.mp hshort item hitem)
      · cases htexts
    | _ => exact hother h hshort (by simp)

theorem listedWithin_nested {n levels : Nat} : (nested n).ListedWithin levels ↔ n < levels := by
  induction n generalizing levels with
  | zero => cases levels <;> simp [nested, ofItems, ListedWithin]
  | succ n ih => cases levels <;> simp [nested, ofItems, ListedWithin, ih]

theorem not_partOf_int_nested {n : Int} {levels : Nat} : ¬PartOf (.int n) (nested levels) := by
  intro h
  induction levels with
  | zero =>
    cases h with
    | item hitem => cases hitem
  | succ levels ih =>
    cases h with
    | item hitem h =>
      obtain rfl := List.mem_singleton.mp hitem
      exact ih h

theorem hasShortIntegers_nested (levels : Nat) : (nested levels).HasShortIntegers :=
  fun _ h ↦ absurd h not_partOf_int_nested

/-! ## Plain values -/

theorem toPrimitive_of_container {value : Value} (h : value.isContainer = true) :
    value.toPrimitive = value.toText.map .text := if_pos h

/-- Where the integers are short, only the nesting of lists is in the way of a plain value. -/
theorem exists_toPrimitive_iff {value : Value} (hshort : value.ShowsShortIntegers) :
    (∃ plain, value.toPrimitive = .ok plain) ↔ value.ListedWithin Stack.texts := by
  cases hcontainer : value.isContainer with
  | false =>
    rw [toPrimitive_of_not_container hcontainer]
    exact iff_of_true ⟨value, rfl⟩ (listedWithin_of_scalar hcontainer)
  | true =>
    have htext : (∃ t, value.toText = .ok t) ↔ value.ListedWithin Stack.texts :=
      exists_toText_iff.trans (hasText_iff.trans (and_iff_left hshort))
    rw [toPrimitive_of_container hcontainer, ← htext]
    cases value.toText <;> simp [Except.map]

theorem eq_nestingTooDeep_of_toPrimitive {value : Value} {f : Failure}
    (h : value.toPrimitive = .error f) (hshort : value.ShowsShortIntegers) :
    f = .nestingTooDeep := by
  cases hcontainer : value.isContainer with
  | false =>
    rw [toPrimitive_of_not_container hcontainer] at h
    cases h
  | true =>
    rw [toPrimitive_of_container hcontainer] at h
    cases htext : value.toText with
    | error g =>
      rw [htext] at h
      cases h
      exact eq_nestingTooDeep_of_textWithin htext hshort
    | ok t =>
      rw [htext] at h
      cases h

/-- A step that takes two plain values fails if one of the values is nested beyond the limit,
whichever of them it is. -/
theorem toPrimitive_bind_eq_error {α : Type} {a b : Value} (ha : a.ShowsShortIntegers)
    (hb : b.ShowsShortIntegers) (h : ¬(a.ListedWithin Stack.texts ∧ b.ListedWithin Stack.texts))
    (f : Value → Value → Except Failure α) :
    (a.toPrimitive >>= fun p ↦ b.toPrimitive >>= f p) = .error .nestingTooDeep := by
  cases hp : a.toPrimitive with
  | error e => rw [eq_nestingTooDeep_of_toPrimitive hp ha, error_bind]
  | ok p =>
    cases hq : b.toPrimitive with
    | error e => rw [eq_nestingTooDeep_of_toPrimitive hq hb, ok_bind, error_bind]
    | ok q =>
      exact absurd
        ⟨(exists_toPrimitive_iff ha).mp ⟨p, hp⟩, (exists_toPrimitive_iff hb).mp ⟨q, hq⟩⟩ h

end MockApi.Value
