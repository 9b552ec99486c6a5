import MockApi.Proofs.Outcome
import MockApi.Value.Json
import MockApi.Value.Shown

/-!
# Which values can be written

A value takes the place of a placeholder as a text, and two things stand in the way: an integer with
more digits than the limit, anywhere inside the value, and nesting beyond the limit. Nothing else
does: doubles that are not finite are written as `null`, and whole doubles that are written as
integers are short.

Writing goes in two passes, one that makes the value fit for JSON and one that writes it, so the two
obstacles come from different passes and are proved apart.
-/

namespace MockApi

variable {stack : Stack}

/-- An integer with no more digits than the limit. -/
def IsShort (n : Int) : Prop := (Nat.toDigits 10 n.natAbs).length ≤ decimalDigitLimit

instance (n : Int) : Decidable (IsShort n) := inferInstanceAs (Decidable (_ ≤ _))

theorem IsShort.mono {m n : Int} (h : IsShort m) (hle : n.natAbs ≤ m.natAbs) : IsShort n := by
  have hm := (Nat.length_toDigits_le_iff (by decide) (by decide)).mp h
  exact (Nat.length_toDigits_le_iff (by decide) (by decide)).mpr (Nat.lt_of_le_of_lt hle hm)

theorem integerText_eq_ok_iff {n : Int} : (∃ t, integerText n = .ok t) ↔ IsShort n := by
  unfold integerText IsShort
  split
  · rename_i h
    exact ⟨fun _ ↦ h, fun _ ↦ ⟨_, rfl⟩⟩
  · rename_i h
    simp [h]

namespace Value

/-! ## Parts and nesting -/

/-- A value is part of another one: it is the same, or part of an item or an entry. -/
inductive PartOf : Value → Value → Prop
  | refl (value : Value) : PartOf value value
  | item {part item : Value} {identity : Nat} {items : List Value} (hitem : item ∈ items)
      (h : PartOf part item) : PartOf part (.list identity items)
  | entry {part : Value} {entry : Text × Value} {identity : Nat} {entries : List (Text × Value)}
      (hentry : entry ∈ entries) (h : PartOf part entry.2) : PartOf part (.object identity entries)

/-- A value is nested no more than `levels` deep. -/
def NestedWithin : Nat → Value → Prop
  | 0, list .. | 0, object .. => False
  | levels + 1, list _ items => ∀ item ∈ items, NestedWithin levels item
  | levels + 1, object _ entries => ∀ entry ∈ entries, NestedWithin levels entry.2
  | _, _ => True

/-- All integers that are part of a value are short. -/
def HasShortIntegers (value : Value) : Prop := ∀ ⦃n⦄, PartOf (.int n) value → IsShort n

/-- A value that can be written into a text. -/
structure Writable [Stack] (value : Value) : Prop where
  /-- The value is not nested beyond the limit. -/
  nested : value.NestedWithin Stack.ready
  /-- No integer in the value has too many digits. -/
  short : value.HasShortIntegers

theorem writable_iff {value : Value} :
    value.Writable ↔ value.NestedWithin Stack.ready ∧ value.HasShortIntegers :=
  ⟨fun h ↦ ⟨h.nested, h.short⟩, fun h ↦ ⟨h.1, h.2⟩⟩

theorem nestedWithin_of_scalar {levels : Nat} {value : Value}
    (hcontainer : value.isContainer = false) : value.NestedWithin levels := by
  cases value with
  | list | object => cases hcontainer
  | _ => cases levels <;> trivial

theorem NestedWithin.mono {levels levels' : Nat} {value : Value} (h : value.NestedWithin levels)
    (hle : levels ≤ levels') : value.NestedWithin levels' := by
  induction levels generalizing value levels' with
  | zero =>
    cases value with
    | list | object => cases h
    | _ => exact nestedWithin_of_scalar rfl
  | succ levels ih =>
    obtain ⟨k, rfl⟩ : ∃ k, levels' = k + 1 := ⟨levels' - 1, by omega⟩
    cases value with
    | list identity items => exact fun item hitem ↦ ih (h item hitem) (by omega)
    | object identity entries => exact fun entry hentry ↦ ih (h entry hentry) (by omega)
    | _ => trivial

theorem PartOf.trans {part middle value : Value} (hpart : PartOf part middle)
    (h : PartOf middle value) : PartOf part value := by
  induction h with
  | refl => exact hpart
  | item hitem _ ih => exact .item hitem ih
  | entry hentry _ ih => exact .entry hentry ih

theorem NestedWithin.of_partOf {levels : Nat} {part value : Value} (hpart : PartOf part value)
    (h : value.NestedWithin levels) : part.NestedWithin levels := by
  induction hpart generalizing levels with
  | refl => exact h
  | item hitem _ ih =>
    cases levels with
    | zero => cases h
    | succ levels => exact (ih (h _ hitem)).mono (Nat.le_succ levels)
  | entry hentry _ ih =>
    cases levels with
    | zero => cases h
    | succ levels => exact (ih (h _ hentry)).mono (Nat.le_succ levels)

/-- With a value, all its parts can be written. -/
theorem Writable.of_partOf {part value : Value} (h : value.Writable) (hpart : PartOf part value) :
    part.Writable :=
  ⟨h.nested.of_partOf hpart, fun _ hn ↦ h.short (hn.trans hpart)⟩

section Parts

variable {α : Type} {make : α → Value} {p : α → Prop}

/-- What holds of all scalars of some kind in a list holds of those in its items. -/
theorem forall_partOf_list (hmake : ∀ a, (make a).isContainer = false) {identity : Nat}
    {items : List Value} : (∀ ⦃a⦄, PartOf (make a) (list identity items) → p a) ↔
      ∀ item ∈ items, ∀ ⦃a⦄, PartOf (make a) item → p a := by
  constructor
  · intro h item hitem a ha
    exact h (.item hitem ha)
  · intro h a ha
    generalize hpart : make a = part at ha
    cases ha with
    | refl => cases hpart ▸ hmake a
    | item hitem hitems => exact h _ hitem (hpart ▸ hitems)

/-- The same for an object and its entries. -/
theorem forall_partOf_object (hmake : ∀ a, (make a).isContainer = false) {identity : Nat}
    {entries : List (Text × Value)} : (∀ ⦃a⦄, PartOf (make a) (object identity entries) → p a) ↔
      ∀ entry ∈ entries, ∀ ⦃a⦄, PartOf (make a) entry.2 → p a := by
  constructor
  · intro h entry hentry a ha
    exact h (.entry hentry ha)
  · intro h a ha
    generalize hpart : make a = part at ha
    cases ha with
    | refl => cases hpart ▸ hmake a
    | entry hentry hentries => exact h _ hentry (hpart ▸ hentries)

/-- The only part of a scalar is the scalar. -/
theorem forall_partOf_scalar {value : Value} (hcontainer : value.isContainer = false) :
    (∀ ⦃a⦄, PartOf (make a) value → p a) ↔ ∀ a, value = make a → p a := by
  constructor
  · intro h a ha
    exact h (ha ▸ .refl value)
  · intro h a ha
    generalize hpart : make a = part at ha
    cases ha with
    | refl => exact h a hpart.symm
    | item | entry => cases hcontainer

end Parts

theorem hasShortIntegers_list {identity : Nat} {items : List Value} :
    (list identity items).HasShortIntegers ↔ ∀ item ∈ items, item.HasShortIntegers :=
  forall_partOf_list fun _ ↦ rfl

theorem hasShortIntegers_object {identity : Nat} {entries : List (Text × Value)} :
    (object identity entries).HasShortIntegers ↔ ∀ entry ∈ entries, entry.2.HasShortIntegers :=
  forall_partOf_object fun _ ↦ rfl

theorem hasShortIntegers_int {n : Int} : (int n).HasShortIntegers ↔ IsShort n :=
  (forall_partOf_scalar rfl).trans (by simp [int])

/-- Values other than integers and containers hold no integers. -/
theorem hasShortIntegers_of_scalar {value : Value} (hcontainer : value.isContainer = false)
    (hint : ∀ n, value ≠ int n) : value.HasShortIntegers :=
  (forall_partOf_scalar hcontainer).mpr fun n hn ↦ absurd hn (hint n)

/-- Lists inside one another, `n` of them around an empty one. -/
def nested : Nat → Value
  | 0 => .ofItems []
  | n + 1 => .ofItems [nested n]

theorem nestedWithin_nested {n levels : Nat} : (nested n).NestedWithin levels ↔ n < levels := by
  induction n generalizing levels with
  | zero => cases levels <;> simp [nested, ofItems, NestedWithin]
  | succ n ih => cases levels <;> simp [nested, ofItems, NestedWithin, ih]

/-! ## Making values fit for JSON -/

/-- Only nesting stands in the way of making a value fit for JSON. -/
theorem exists_jsonReadyWithin_eq_ok_iff {levels : Nat} {value : Value} :
    (∃ ready, jsonReadyWithin levels value = .ok ready) ↔ value.NestedWithin levels := by
  induction levels generalizing value with
  | zero =>
    cases value with
    | number x => cases x <;> simp [jsonReadyWithin, NestedWithin]
    | _ => simp [jsonReadyWithin, NestedWithin]
  | succ levels ih =>
    cases value with
    | number x => cases x <;> simp [jsonReadyWithin, NestedWithin]
    | list identity items =>
      simp only [jsonReadyWithin, pure_eq_ok, exists_bind_ok_eq_ok_iff, exists_mapM_eq_ok_iff, ih,
        NestedWithin]
    | object identity entries =>
      simp only [jsonReadyWithin, pure_eq_ok, exists_bind_ok_eq_ok_iff, exists_mapM_eq_ok_iff, ih,
        NestedWithin]
    | _ => simp [jsonReadyWithin, NestedWithin]

/-! ## Writing JSON -/

/-- Integers below `10 ^ 21` are short. -/
theorem isShort_of_lt {n : Int} (h : n.natAbs < Double.tenTo 21) : IsShort n := by
  have hlength : (Nat.toDigits 10 n.natAbs).length ≤ 21 :=
    (Nat.length_toDigits_le_iff (by decide) (by decide)).mpr h
  exact Nat.le_trans hlength (by decide)

theorem exists_write_jsonNumber {levels depth : Nat} (x : Double) :
    ∃ t, Json.writeWithin .compact levels depth (jsonNumber x) = .ok t := by
  unfold jsonNumber
  split
  · exact ⟨"null", by simp [Json.writeWithin]⟩
  · split
    · rename_i n hwhole
      have hbound : n.natAbs < Double.tenTo 21 := by
        simpa using (Option.filter_eq_some_iff.mp hwhole).2
      simpa [int, Json.writeWithin, Json.writeNumber] using
        integerText_eq_ok_iff.mpr (isShort_of_lt hbound)
    · simp [double, Json.writeWithin, Json.writeNumber, JsonStyle.compact]

/-- Values other than containers are written unless they are long integers. -/
theorem exists_writeWithin_eq_ok_iff_of_scalar {levels room depth : Nat} {value ready : Value}
    (hcontainer : value.isContainer = false) (h : jsonReadyWithin levels value = .ok ready) :
    (∃ t, Json.writeWithin .compact room depth ready = .ok t) ↔ value.HasShortIntegers := by
  cases value with
  | number x =>
    cases x with
    | int n =>
      have hready : int n = ready := by cases levels <;> exact Except.ok.inj h
      rw [← int, hasShortIntegers_int, ← integerText_eq_ok_iff, ← hready]
      simp [int, Json.writeWithin, Json.writeNumber]
    | double x =>
      have hready : jsonNumber x = ready := by cases levels <;> exact Except.ok.inj h
      rw [← hready]
      exact iff_of_true (exists_write_jsonNumber x) (hasShortIntegers_of_scalar rfl (by simp [int]))
  | list | object => cases hcontainer
  | null | undefined | bool | text =>
    refine iff_of_true ?_ (hasShortIntegers_of_scalar rfl (by simp [int]))
    cases levels <;> cases h <;> simp [Json.writeWithin]

/-- Once a value is fit for JSON, only long integers stand in the way of writing it. -/
theorem exists_writeWithin_eq_ok_iff {levels room depth : Nat} {value ready : Value}
    (hroom : levels ≤ room) (h : jsonReadyWithin levels value = .ok ready) :
    (∃ t, Json.writeWithin .compact room depth ready = .ok t) ↔ value.HasShortIntegers := by
  induction levels generalizing room value ready depth with
  | zero =>
    by_cases hcontainer : value.isContainer = true
    · -- without a level left, no container is fit for JSON
      cases value <;> simp_all [isContainer, jsonReadyWithin]
    · exact exists_writeWithin_eq_ok_iff_of_scalar (by simpa using hcontainer) h
  | succ levels ih =>
    obtain ⟨room, rfl⟩ : ∃ n, room = n + 1 := ⟨room - 1, by omega⟩
    cases value with
    | list identity items =>
      simp only [jsonReadyWithin] at h
      obtain ⟨readies, hitems, hready⟩ := bind_eq_ok_iff.mp h
      cases hready
      simp only [ofItems, Json.writeWithin, pure_eq_ok, exists_bind_ok_eq_ok_iff,
        exists_mapM_eq_ok_iff, hasShortIntegers_list]
      exact forall_mem_iff_of_mapM hitems fun item ready hitem ↦
        ih (Nat.le_of_succ_le_succ hroom) hitem
    | object identity entries =>
      simp only [jsonReadyWithin] at h
      obtain ⟨readies, hentries, hready⟩ := bind_eq_ok_iff.mp h
      cases hready
      simp only [ofEntries, Json.writeWithin, pure_eq_ok, exists_bind_ok_eq_ok_iff,
        exists_mapM_eq_ok_iff, hasShortIntegers_object]
      refine forall_mem_iff_of_mapM hentries fun entry ready hentry ↦ ?_
      obtain ⟨value, hvalue, hresult⟩ := bind_eq_ok_iff.mp hentry
      cases hresult
      exact ih (Nat.le_of_succ_le_succ hroom) hvalue
    | _ => exact exists_writeWithin_eq_ok_iff_of_scalar rfl h

/-- **Which values have a JSON text.** Those that can be written. -/
theorem exists_toJson_eq_ok_iff {value : Value} :
    (∃ t, value.toJson = .ok t) ↔ value.Writable := by
  rw [writable_iff, ← exists_jsonReadyWithin_eq_ok_iff]
  constructor
  · rintro ⟨t, h⟩
    obtain ⟨ready, hready, hwrite⟩ := bind_eq_ok_iff.mp h
    exact ⟨⟨ready, hready⟩,
      (exists_writeWithin_eq_ok_iff Stack.ready_le_writing hready).mp ⟨t, hwrite⟩⟩
  · rintro ⟨⟨ready, hready⟩, hshort⟩
    obtain ⟨t, hwrite⟩ := (exists_writeWithin_eq_ok_iff Stack.ready_le_writing hready).mpr hshort
    exact ⟨t, bind_eq_ok_iff.mpr ⟨ready, hready, hwrite⟩⟩

/-! ## Replacements -/

/-- Values other than containers have a text under the same condition. -/
theorem exists_toText_eq_ok_iff {value : Value} (hcontainer : value.isContainer = false) :
    (∃ t, value.toText = .ok t) ↔ value.Writable := by
  rw [writable_iff, and_iff_right (nestedWithin_of_scalar hcontainer)]
  cases value with
  | number x =>
    cases x with
    | int n =>
      rw [← int, hasShortIntegers_int, ← integerText_eq_ok_iff]
      simp [int, toText, textWithin, Number.write]
    | double x =>
      refine iff_of_true ?_ (hasShortIntegers_of_scalar rfl (by simp [int]))
      simp [toText, textWithin, Number.write]
  | list | object => cases hcontainer
  | null | undefined | bool | text =>
    refine iff_of_true ?_ (hasShortIntegers_of_scalar rfl (by simp [int]))
    simp [toText, textWithin]

/-- **Which values take the place of a placeholder.** Those that can be written. -/
theorem exists_toReplacement_eq_ok_iff {value : Value} :
    (∃ t, value.toReplacement = .ok t) ↔ value.Writable := by
  unfold toReplacement
  by_cases hcontainer : value.isContainer = true
  · rw [if_pos hcontainer]
    exact exists_toJson_eq_ok_iff
  · rw [if_neg hcontainer]
    exact exists_toText_eq_ok_iff (by simpa using hcontainer)

/-! ## Values in full -/

theorem exists_quotedWithin_eq_ok_iff {levels : Nat} {value : Value} :
    (∃ t, value.quotedWithin levels = .ok t) ↔
      value.NestedWithin levels ∧ value.HasShortIntegers := by
  have hscalar {levels : Nat} {value : Value} (hcontainer : value.isContainer = false) :
      (∃ t, value.quotedWithin levels = .ok t) ↔
        value.NestedWithin levels ∧ value.HasShortIntegers := by
    rw [and_iff_right (nestedWithin_of_scalar hcontainer)]
    cases value with
    | number x =>
      rw [quotedWithin]
      cases x with
      | int n => exact integerText_eq_ok_iff.trans hasShortIntegers_int.symm
      | double x => exact iff_of_true ⟨_, rfl⟩ (hasShortIntegers_of_scalar rfl (by simp [int]))
    | list | object => cases hcontainer
    | null | undefined | bool | text =>
      rw [quotedWithin]
      exact iff_of_true ⟨_, rfl⟩ (hasShortIntegers_of_scalar rfl (by simp [int]))
  induction levels generalizing value with
  | zero =>
    cases value with
    | list | object => simp [quotedWithin, NestedWithin]
    | _ => exact hscalar rfl
  | succ levels ih =>
    cases value with
    | list identity items =>
      simp only [quotedWithin, pure_eq_ok, exists_bind_ok_eq_ok_iff, exists_mapM_eq_ok_iff, ih,
        NestedWithin, hasShortIntegers_list, forall_and]
    | object identity entries =>
      simp only [quotedWithin, pure_eq_ok, exists_bind_ok_eq_ok_iff, exists_mapM_eq_ok_iff, ih,
        NestedWithin, hasShortIntegers_object, forall_and]
    | _ => exact hscalar rfl

/-- A value that can be written can be shown in full. -/
theorem exists_shown_eq_ok {value : Value} (h : value.Writable) : ∃ t, value.shown = .ok t := by
  cases value with
  | text t => exact ⟨t, rfl⟩
  | _ => exact exists_quotedWithin_eq_ok_iff.mpr ⟨h.nested.mono Stack.ready_le_shown, h.short⟩

/-- Other than containers, just the values with short integers can be shown in full. -/
theorem exists_shown_iff_of_scalar {value : Value} (hcontainer : value.isContainer = false) :
    (∃ t, value.shown = .ok t) ↔ value.HasShortIntegers := by
  cases value with
  | text t => exact iff_of_true ⟨t, rfl⟩ (hasShortIntegers_of_scalar rfl (by simp [int]))
  | list | object => cases hcontainer
  | _ =>
    refine exists_quotedWithin_eq_ok_iff.trans (and_iff_right ?_)
    exact nestedWithin_of_scalar hcontainer

end Value

end MockApi
