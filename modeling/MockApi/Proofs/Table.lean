import Mathlib.Data.List.Basic
import Mathlib.Data.List.Induction
import MockApi.Table

/-!
# What tables hold

A table that was written down holds, under each name that was written, what was written last. If no
name was written twice, then it holds everything that was written and in the same order.
-/

namespace MockApi.Table

variable {α β : Type}

/-! ## Looking up -/

theorem get?_map (f : α → β) (table : Table α) (name : Text) :
    Table.get? (table.map fun (k, value) ↦ (k, f value)) name = (table.get? name).map f := by
  induction table with
  | nil => rfl
  | cons entry table ih =>
    obtain ⟨k, value⟩ := entry
    unfold get? at ih ⊢
    rw [List.map_cons, List.lookup_cons, List.lookup_cons]
    cases name == k with
    | true => rfl
    | false => exact ih

/-- Of distinct names, each has under it what stands beside it. -/
theorem get?_of_mem {table : Table α} (h : table.names.Nodup) {name : Text} {value : α}
    (hmem : (name, value) ∈ table) : table.get? name = some value := by
  obtain ⟨front, back, rfl⟩ := List.append_of_mem hmem
  refine List.lookup_eq_some_iff.mpr ⟨front, back, rfl, fun entry hentry ↦ ?_⟩
  rw [names, List.map_append, List.map_cons, List.nodup_append] at h
  have hne := h.2.2 entry.1 (List.mem_map_of_mem hentry) name List.mem_cons_self
  exact bne_iff_ne.mpr (Ne.symm hne)

/-! ## Tables that were written down -/

/-- A table that was written down has something under the names that were written. -/
theorem isSome_get?_ofList_iff {written : List (Text × α)} {name : Text} :
    ((ofList written).get? name).isSome = true ↔ name ∈ written.map Prod.fst := by
  suffices hall : ∀ table : Table α, ((table.insertAll written).get? name).isSome = true ↔
      (table.get? name).isSome = true ∨ name ∈ written.map Prod.fst from
    (hall []).trans (or_iff_right (by simp [get?]))
  induction written with
  | nil => simp [insertAll]
  | cons entry written ih =>
    intro table
    obtain ⟨k, value⟩ := entry
    have hstep : table.insertAll ((k, value) :: written) =
        (table.insert k value).insertAll written := rfl
    rw [hstep, ih, get?_insert, List.map_cons, List.mem_cons]
    by_cases h : name = k
    · simp [h]
    · simp [h]

theorem insertAll_append_singleton (table written : Table α) (name : Text) (value : α) :
    table.insertAll (written ++ [(name, value)]) = (table.insertAll written).insert name value :=
  List.foldl_append

/-- Under each name a table has what was written under it last. -/
theorem get?_ofList (written : List (Text × α)) (name : Text) :
    (ofList written).get? name = written.reverse.lookup name := by
  induction written using List.reverseRecOn with
  | nil => rfl
  | append_singleton written entry ih =>
    rw [ofList, insertAll_append_singleton, get?_insert, List.reverse_concat, List.lookup_cons]
    by_cases h : name = entry.1
    · rw [if_pos h, beq_iff_eq.mpr h]
    · rw [if_neg h, beq_eq_false_iff_ne.mpr h]
      exact ih

/-- The names of a table are those that were written, in the order in which they were written
first. -/
theorem names_ofList (written : List (Text × α)) :
    (ofList written).names = (written.map Prod.fst).eraseDups := by
  induction written using List.reverseRecOn with
  | nil => rfl
  | append_singleton written entry ih =>
    rw [ofList, insertAll_append_singleton, names_insert, ← ofList, ih, List.map_append,
      List.map_singleton, List.eraseDups_append]
    by_cases h : entry.1 ∈ written.map Prod.fst
    · rw [if_pos (List.mem_eraseDups.mpr h)]
      simp [List.removeAll, h]
    · rw [if_neg fun hmem ↦ h (List.mem_eraseDups.mp hmem)]
      simp [List.removeAll, h, List.eraseDups_cons]

/-- A table with one entry was written with that entry last. -/
theorem getLast?_of_ofList_eq_singleton {written : List (Text × α)} {entry : Text × α}
    (h : ofList written = [entry]) : written.getLast? = some entry := by
  rcases List.eq_nil_or_concat' written with rfl | ⟨before, last, rfl⟩
  · cases h
  · have hlast : (ofList (before ++ [last])).get? last.1 = some last.2 := by
      rw [get?_ofList, List.reverse_concat, List.lookup_cons_self]
    rw [h] at hlast
    have hentry : last = entry := List.mem_singleton.mp (mem_of_get?_eq_some hlast)
    rw [List.getLast?_concat, hentry]

/-- A new name is put in at the end. -/
theorem insert_of_notMem {table : Table α} {name : Text} (hnew : name ∉ table.names) (value : α) :
    table.insert name value = table ++ [(name, value)] := by
  induction table with
  | nil => rfl
  | cons entry rest ih =>
    simp only [names, List.map_cons, List.mem_cons, not_or] at hnew ih
    rw [insert, if_neg (Ne.symm hnew.1), ih hnew.2]
    rfl

/-- A table that is written down with distinct names is read as it is. -/
theorem ofList_eq_self {written : List (Text × α)} (h : (names written).Nodup) :
    ofList written = written := by
  have hall (table rest : Table α) (hdistinct : (names (table ++ rest)).Nodup) :
      table.insertAll rest = table ++ rest := by
    induction rest generalizing table with
    | nil => rw [List.append_nil]; rfl
    | cons entry rest ih =>
      have hnew : entry.1 ∉ table.names := by
        simp only [names, List.map_append, List.map_cons] at hdistinct
        intro hmem
        exact (List.nodup_append.mp hdistinct).2.2 _ hmem _ List.mem_cons_self rfl
      have hstep : table.insertAll (entry :: rest)
          = insertAll (table.insert entry.1 entry.2) rest := rfl
      rw [hstep, insert_of_notMem hnew, ih _ (by simpa using hdistinct)]
      simp
  exact hall [] written h

end MockApi.Table
