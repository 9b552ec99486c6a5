import MockApi.Proofs.Json.Compact

/-!
# The document of a value

A value is written as JSON in two passes, one that makes it what JSON can express and one that
writes it, and both count levels. For a value that can be written neither the levels nor the limits
matter, so its text is a function of the value alone, and the text of a container is put together
from those of its items.
-/

namespace MockApi.Value

variable {stack : Stack}

/-! ## Values as JSON can express them -/

mutual

/-- The value as JSON can express it, however deeply it is nested. -/
def ready : Value → Value
  | .undefined => .null
  | .number (.double x) => jsonNumber x
  | .list _ items => ofItems (readyItems items)
  | .object _ entries => ofEntries (readyEntries entries)
  | value => value

/-- Some items as JSON can express them. -/
def readyItems : List Value → List Value
  | [] => []
  | item :: items => ready item :: readyItems items

/-- Some entries as JSON can express them. -/
def readyEntries : List (Text × Value) → List (Text × Value)
  | [] => []
  | (key, value) :: entries => (key, ready value) :: readyEntries entries

end

theorem readyItems_eq_map (items : List Value) : readyItems items = items.map ready := by
  induction items with
  | nil => rfl
  | cons item items ih => rw [readyItems, ih, List.map_cons]

theorem readyEntries_eq_map (entries : List (Text × Value)) :
    readyEntries entries = entries.map fun entry ↦ (entry.1, entry.2.ready) := by
  induction entries with
  | nil => rfl
  | cons entry entries ih => rw [readyEntries, ih, List.map_cons]

theorem ready_list (identity : Nat) (items : List Value) :
    (list identity items).ready = ofItems (items.map ready) := by
  rw [ready, readyItems_eq_map]

theorem ready_object (identity : Nat) (entries : List (Text × Value)) :
    (object identity entries).ready
      = ofEntries (entries.map fun entry ↦ (entry.1, entry.2.ready)) := by
  rw [ready, readyEntries_eq_map]

theorem isContainer_jsonNumber (x : Double) : (jsonNumber x).isContainer = false := by
  unfold jsonNumber
  split
  · rfl
  · split <;> rfl

theorem hasShortIntegers_jsonNumber (x : Double) : (jsonNumber x).HasShortIntegers := by
  unfold jsonNumber
  split
  · exact hasShortIntegers_of_scalar rfl (by simp [int])
  · split
    · rename_i n hwhole
      have hbound : n.natAbs < Double.tenTo 21 := by
        simpa using (Option.filter_eq_some_iff.mp hwhole).2
      exact hasShortIntegers_int.mpr (isShort_of_lt hbound)
    · exact hasShortIntegers_of_scalar rfl (by simp [int, double])

/-- A value that is not nested too deep is made into what JSON can express of it. -/
theorem jsonReadyWithin_eq {levels : Nat} {value : Value} (h : value.NestedWithin levels) :
    value.jsonReadyWithin levels = .ok value.ready ∧ value.ready.NestedWithin levels := by
  induction levels generalizing value with
  | zero =>
    cases value with
    | list | object => cases h
    | number x =>
      cases x with
      | int n => exact ⟨rfl, trivial⟩
      | double x => exact ⟨rfl, nestedWithin_of_scalar (isContainer_jsonNumber x)⟩
    | _ => exact ⟨rfl, trivial⟩
  | succ levels ih =>
    cases value with
    | list identity items =>
      rw [ready_list, jsonReadyWithin, mapM_eq_ok_map fun item hitem ↦ (ih (h item hitem)).1]
      exact ⟨rfl, List.forall_mem_map.mpr fun item hitem ↦ (ih (h item hitem)).2⟩
    | object identity entries =>
      have hentries : ∀ entry ∈ entries, (do
          return (entry.1, ← entry.2.jsonReadyWithin levels))
            = Except.ok (ε := Failure) (entry.1, entry.2.ready) := by
        intro entry hentry
        rw [(ih (h entry hentry)).1]
        rfl
      simp only [jsonReadyWithin]
      rw [ready_object, mapM_eq_ok_map hentries]
      exact ⟨rfl, List.forall_mem_map.mpr fun entry hentry ↦ (ih (h entry hentry)).2⟩
    | number x =>
      cases x with
      | int n => exact ⟨rfl, trivial⟩
      | double x => exact ⟨rfl, nestedWithin_of_scalar (isContainer_jsonNumber x)⟩
    | _ => exact ⟨rfl, trivial⟩

/-- What JSON can express of a value has no long integers but those of the value. -/
theorem hasShortIntegers_ready {levels : Nat} {value : Value} (hnested : value.NestedWithin levels)
    (h : value.HasShortIntegers) : value.ready.HasShortIntegers := by
  induction levels generalizing value with
  | zero =>
    cases value with
    | list | object => cases hnested
    | number x =>
      cases x with
      | int n => exact h
      | double x => exact hasShortIntegers_jsonNumber x
    | _ => exact hasShortIntegers_of_scalar rfl (by simp [int, ready])
  | succ levels ih =>
    cases value with
    | list identity items =>
      rw [hasShortIntegers_list] at h
      rw [ready_list, ofItems, hasShortIntegers_list]
      exact List.forall_mem_map.mpr fun item hitem ↦ ih (hnested item hitem) (h item hitem)
    | object identity entries =>
      rw [hasShortIntegers_object] at h
      rw [ready_object, ofEntries, hasShortIntegers_object]
      exact List.forall_mem_map.mpr fun entry hentry ↦ ih (hnested entry hentry) (h entry hentry)
    | number x =>
      cases x with
      | int n => exact h
      | double x => exact hasShortIntegers_jsonNumber x
    | _ => exact hasShortIntegers_of_scalar rfl (by simp [int, ready])

/-! ## Documents -/

/-- The JSON text of a value, however deeply it is nested and however long its integers. -/
def documentText (value : Value) : Text := Json.compactText value.ready

/-- The JSON text of an entry, with its key in front. -/
def entryDocument (entry : Text × Value) : Text :=
  Json.writeKey .compact entry.1 ++ entry.2.documentText

theorem documentText_object (identity : Nat) (entries : List (Text × Value)) :
    (object identity entries).documentText
      = 0x7B :: (Text.join [','.toNat] (entries.map entryDocument) ++ [0x7D]) := by
  rw [documentText, ready_object, ofEntries, Json.compactText_object, List.map_map]
  rfl

/-- **The JSON text of a value** is put together from the texts of its parts. -/
theorem toJson_eq {value : Value} (h : value.Writable) :
    value.toJson = .ok value.documentText := by
  obtain ⟨hready, hnested⟩ := jsonReadyWithin_eq h.nested
  have hwrite : Json.write .compact value.ready = .ok value.documentText :=
    Json.writeWithin_eq (hnested.mono Stack.ready_le_writing)
      (hasShortIntegers_ready h.nested h.short)
  rw [toJson, jsonReady, hready, ok_bind, hwrite]

end MockApi.Value
