import MockApi.Proofs.Value.Writing

/-!
# What a style writes

A document is written unless the value is nested too deep, holds an integer with too many digits, or
holds a number that is not finite and the style has no names for those. There are no other
obstacles, and a failure tells which one was met. What was read from a document meets none but the
last.
-/

namespace MockApi

variable {stack : Stack}

/-! ## Values with finite numbers -/

namespace Value

/-- No double in a value is NaN or an infinity. -/
def HasFiniteNumbers (value : Value) : Prop :=
  ∀ ⦃x⦄, PartOf (.double x) value → x.isNaN = false ∧ x.isInfinite = false

theorem hasFiniteNumbers_list {identity : Nat} {items : List Value} :
    (list identity items).HasFiniteNumbers ↔ ∀ item ∈ items, item.HasFiniteNumbers :=
  forall_partOf_list fun _ ↦ rfl

theorem hasFiniteNumbers_object {identity : Nat} {entries : List (Text × Value)} :
    (object identity entries).HasFiniteNumbers ↔ ∀ entry ∈ entries, entry.2.HasFiniteNumbers :=
  forall_partOf_object fun _ ↦ rfl

theorem hasFiniteNumbers_of_scalar {value : Value} (hcontainer : value.isContainer = false)
    (h : ∀ x, value = double x → x.isNaN = false ∧ x.isInfinite = false) :
    value.HasFiniteNumbers :=
  (forall_partOf_scalar hcontainer).mpr h

theorem hasFiniteNumbers_double {x : Double} :
    (double x).HasFiniteNumbers ↔ x.isNaN = false ∧ x.isInfinite = false :=
  (forall_partOf_scalar rfl).trans (by simp [double])

end Value

namespace Json

variable {style : JsonStyle} {levels depth : Nat} {value : Value} {t : Text} {failure : Failure}

/-- A value that is written in some style. -/
structure WritesIn (style : JsonStyle) (levels : Nat) (value : Value) : Prop where
  /-- The value is not nested too deep. -/
  nested : value.NestedWithin levels
  /-- No integer in the value has too many digits. -/
  short : value.HasShortIntegers
  /-- No number in the value has a name only, unless the style has names. -/
  finite : style.namesNonFinite = false → value.HasFiniteNumbers

/-- What stands in the way of writing a value in some style. -/
inductive Obstructs (style : JsonStyle) (levels : Nat) (value : Value) : Failure → Prop
  /-- The value is nested too deep. -/
  | nested (h : ¬value.NestedWithin levels) : Obstructs style levels value .nestingTooDeep
  /-- An integer in the value has too many digits. -/
  | long (h : ¬value.HasShortIntegers) : Obstructs style levels value .integerTooLong
  /-- A number in the value has a name only. -/
  | nonFinite (hstyle : style.namesNonFinite = false) (h : ¬value.HasFiniteNumbers) :
      Obstructs style levels value .numberNotFinite

theorem Obstructs.list {identity : Nat} {items : List Value} {item : Value}
    (h : Obstructs style levels item failure) (hitem : item ∈ items) :
    Obstructs style (levels + 1) (.list identity items) failure := by
  cases h with
  | nested h => exact .nested fun hlist ↦ h (hlist item hitem)
  | long h => exact .long fun hlist ↦ h (Value.hasShortIntegers_list.mp hlist item hitem)
  | nonFinite hstyle h =>
    exact .nonFinite hstyle fun hlist ↦ h (Value.hasFiniteNumbers_list.mp hlist item hitem)

theorem Obstructs.object {identity : Nat} {entries : List (Text × Value)} {entry : Text × Value}
    (h : Obstructs style levels entry.2 failure) (hentry : entry ∈ entries) :
    Obstructs style (levels + 1) (.object identity entries) failure := by
  cases h with
  | nested h => exact .nested fun hobject ↦ h (hobject entry hentry)
  | long h => exact .long fun hobject ↦ h (Value.hasShortIntegers_object.mp hobject entry hentry)
  | nonFinite hstyle h =>
    exact .nonFinite hstyle fun hobject ↦
      h (Value.hasFiniteNumbers_object.mp hobject entry hentry)

theorem obstructs_of_writeNumber {x : Number} (h : writeNumber style x = .error failure) :
    Obstructs style levels (.number x) failure := by
  cases x with
  | int n =>
    have htext : integerText n = .error failure := h
    unfold integerText at htext
    split at htext
    · cases htext
    · rename_i hlong
      cases htext
      exact .long fun hshort ↦ hlong (Value.hasShortIntegers_int.mp hshort)
  | double x =>
    unfold writeNumber at h
    dsimp only at h
    split at h
    · rename_i hname
      cases h
      simp only [Bool.and_eq_true, Bool.not_eq_true', Bool.or_eq_true] at hname
      refine .nonFinite hname.1 fun hfinite ↦ ?_
      have hx := Value.hasFiniteNumbers_double.mp hfinite
      rcases hname.2 with hnan | hinfinite
      · rw [hx.1] at hnan
        cases hnan
      · rw [hx.2] at hinfinite
        cases hinfinite
    · cases h

theorem obstructs_of_writeWithin_of_scalar (hcontainer : value.isContainer = false)
    (h : writeWithin style levels depth value = .error failure) :
    Obstructs style levels value failure := by
  cases value with
  | number x =>
    rw [writeWithin] at h
    exact obstructs_of_writeNumber h
  | list | object => cases hcontainer
  | null | undefined | bool | text =>
    rw [writeWithin] at h
    cases h

/-- Writing fails for an obstacle. -/
theorem obstructs_of_writeWithin (h : writeWithin style levels depth value = .error failure) :
    Obstructs style levels value failure := by
  -- a container fails with the first of its parts that fails, one level further down
  induction levels generalizing depth value with
  | zero =>
    cases value with
    | list | object =>
      rw [writeWithin] at h
      cases h
      exact .nested id
    | _ => exact obstructs_of_writeWithin_of_scalar rfl h
  | succ levels ih =>
    cases value with
    | list identity items =>
      rw [writeWithin] at h
      rcases bind_eq_error_iff.mp h with hitems | ⟨texts, -, h⟩
      · obtain ⟨item, hitem, hfailure⟩ := exists_of_mapM_eq_error hitems
        exact (ih hfailure).list hitem
      · cases h
    | object identity entries =>
      rw [writeWithin] at h
      rcases bind_eq_error_iff.mp h with hentries | ⟨texts, -, h⟩
      · obtain ⟨entry, hentry, hfailure⟩ := exists_of_mapM_eq_error hentries
        rcases bind_eq_error_iff.mp hfailure with hvalue | ⟨text, -, hfailure⟩
        · exact (ih hvalue).object hentry
        · cases hfailure
      · cases h
    | _ => exact obstructs_of_writeWithin_of_scalar rfl h

theorem WritesIn.not_obstructs (h : WritesIn style levels value) :
    ¬Obstructs style levels value failure := by
  intro hobstructs
  cases hobstructs with
  | nested hnested => exact hnested h.nested
  | long hlong => exact hlong h.short
  | nonFinite hstyle hnonFinite => exact hnonFinite (h.finite hstyle)

theorem writesIn_number {x : Number} (h : ∃ t, writeNumber style x = .ok t) :
    WritesIn style levels (.number x) := by
  cases x with
  | int n =>
    have hshort : IsShort n := integerText_eq_ok_iff.mp h
    exact ⟨Value.nestedWithin_of_scalar rfl, Value.hasShortIntegers_int.mpr hshort,
      fun _ ↦ Value.hasFiniteNumbers_of_scalar rfl (by simp [Value.double])⟩
  | double x =>
    refine ⟨Value.nestedWithin_of_scalar rfl,
      Value.hasShortIntegers_of_scalar rfl (by simp [Value.int]), fun hstyle ↦ ?_⟩
    rw [← Value.double, Value.hasFiniteNumbers_double]
    obtain ⟨t, h⟩ := h
    unfold writeNumber at h
    dsimp only at h
    split at h
    · cases h
    · rename_i hname
      rw [hstyle, Bool.not_false, Bool.true_and, Bool.or_eq_true, not_or] at hname
      exact ⟨Bool.eq_false_iff.mpr hname.1, Bool.eq_false_iff.mpr hname.2⟩

theorem writesIn_of_scalar (hcontainer : value.isContainer = false)
    (h : ∃ t, writeWithin style levels depth value = .ok t) : WritesIn style levels value := by
  cases value with
  | number x =>
    simp only [writeWithin] at h
    exact writesIn_number h
  | list | object => cases hcontainer
  | null | undefined | bool | text =>
    exact ⟨Value.nestedWithin_of_scalar rfl,
      Value.hasShortIntegers_of_scalar rfl (by simp [Value.int]),
      fun _ ↦ Value.hasFiniteNumbers_of_scalar rfl (by simp [Value.double])⟩

/-- What is written meets the conditions. -/
theorem writesIn_of_writeWithin (h : ∃ t, writeWithin style levels depth value = .ok t) :
    WritesIn style levels value := by
  induction levels generalizing depth value with
  | zero =>
    cases value with
    | list | object =>
      obtain ⟨t, h⟩ := h
      rw [writeWithin] at h
      cases h
    | _ => exact writesIn_of_scalar rfl h
  | succ levels ih =>
    cases value with
    | list identity items =>
      simp only [writeWithin, pure_eq_ok, exists_bind_ok_eq_ok_iff, exists_mapM_eq_ok_iff] at h
      have hitems := fun item hitem ↦ ih (h item hitem)
      exact ⟨fun item hitem ↦ (hitems item hitem).nested,
        Value.hasShortIntegers_list.mpr fun item hitem ↦ (hitems item hitem).short,
        fun hstyle ↦ Value.hasFiniteNumbers_list.mpr fun item hitem ↦
          (hitems item hitem).finite hstyle⟩
    | object identity entries =>
      simp only [writeWithin, pure_eq_ok, exists_bind_ok_eq_ok_iff, exists_mapM_eq_ok_iff] at h
      have hentries := fun entry hentry ↦ ih (h entry hentry)
      exact ⟨fun entry hentry ↦ (hentries entry hentry).nested,
        Value.hasShortIntegers_object.mpr fun entry hentry ↦ (hentries entry hentry).short,
        fun hstyle ↦ Value.hasFiniteNumbers_object.mpr fun entry hentry ↦
          (hentries entry hentry).finite hstyle⟩
    | _ => exact writesIn_of_scalar rfl h

/-- **Which values are written.** -/
theorem exists_writeWithin_eq_ok_iff :
    (∃ t, writeWithin style levels depth value = .ok t) ↔ WritesIn style levels value := by
  constructor
  · exact writesIn_of_writeWithin
  · intro h
    cases hwrite : writeWithin style levels depth value with
    | error failure => exact absurd (obstructs_of_writeWithin hwrite) h.not_obstructs
    | ok t => exact ⟨t, rfl⟩

/-- A value within the limits is written in every style with names, and in the others unless there
is a number that is not finite. -/
theorem exists_write_eq_ok_iff (hnested : value.NestedWithin Stack.writing)
    (hshort : value.HasShortIntegers) : (∃ t, write style value = .ok t) ↔
      (style.namesNonFinite = false → value.HasFiniteNumbers) := by
  rw [write, exists_writeWithin_eq_ok_iff]
  exact ⟨fun hwrites ↦ hwrites.finite, fun hfinite ↦ ⟨hnested, hshort, hfinite⟩⟩

/-- Numbers that are not finite are the only obstacle to writing a value within the limits. -/
theorem eq_numberNotFinite_of_write (hnested : value.NestedWithin Stack.writing)
    (hshort : value.HasShortIntegers) (hwrite : write style value = .error failure) :
    failure = .numberNotFinite := by
  cases obstructs_of_writeWithin hwrite with
  | nested hdeep => exact absurd hnested hdeep
  | long hlong => exact absurd hshort hlong
  | nonFinite => rfl

end Json

end MockApi
