import MockApi.Text.Basic

/-!
# Tables

A table holds things under names, in the order in which the names were first put in. Putting
something under a known name replaces what was there and keeps its place. Objects of documents,
captured parameters and response headers are tables.
-/

namespace MockApi

/-- Things under pairwise distinct names, in order of first insertion. -/
abbrev Table (α : Type) := List (Text × α)

namespace Table

variable {α : Type}

/-- What is under a name. -/
def get? (table : Table α) (name : Text) : Option α := table.lookup name

/-- The table with something put under a name; a known name keeps its place. -/
def insert : Table α → Text → α → Table α
  | [], name, value => [(name, value)]
  | (k, v) :: rest, name, value =>
    if k = name then (name, value) :: rest else (k, v) :: insert rest name value

/-- The table with all of `others` put in, one after another. -/
def insertAll (table others : Table α) : Table α :=
  others.foldl (fun acc (name, value) ↦ acc.insert name value) table

/-- The table of things written one after another: a repeated name keeps its first place and its
last meaning. -/
def ofList (written : List (Text × α)) : Table α := insertAll [] written

/-- The names in order. -/
def names (table : Table α) : List Text := table.map Prod.fst

theorem mem_of_get?_eq_some {table : Table α} {name : Text} {value : α}
    (h : table.get? name = some value) : (name, value) ∈ table := by
  obtain ⟨before, after, heq, -⟩ := List.lookup_eq_some_iff.mp h
  rw [heq]
  exact List.mem_append_right before List.mem_cons_self

/-- Putting something in brings nothing but that. -/
theorem mem_of_mem_insert {table : Table α} {name : Text} {value : α} {entry : Text × α}
    (h : entry ∈ table.insert name value) : entry ∈ table ∨ entry = (name, value) := by
  induction table with
  | nil => exact .inr (List.mem_singleton.mp h)
  | cons first rest ih =>
    unfold insert at h
    split at h
    · rcases List.mem_cons.mp h with rfl | h
      · exact .inr rfl
      · exact .inl (List.mem_cons_of_mem _ h)
    · rcases List.mem_cons.mp h with rfl | h
      · exact .inl List.mem_cons_self
      · exact (ih h).imp_left (List.mem_cons_of_mem _)

/-- What is in a table was written down. -/
theorem mem_of_mem_ofList {written : List (Text × α)} {entry : Text × α}
    (h : entry ∈ ofList written) : entry ∈ written := by
  suffices hall : ∀ table : Table α, entry ∈ table.insertAll written →
      entry ∈ table ∨ entry ∈ written from (hall [] h).resolve_left List.not_mem_nil
  clear h
  induction written with
  | nil => exact fun _ h ↦ .inl h
  | cons first written ih =>
    intro table h
    rcases ih (table.insert first.1 first.2) h with h | h
    · rcases mem_of_mem_insert h with h | rfl
      · exact .inl h
      · exact .inr List.mem_cons_self
    · exact .inr (List.mem_cons_of_mem _ h)

theorem get?_insert (table : Table α) (name k : Text) (value : α) :
    (table.insert name value).get? k = if k = name then some value else table.get? k := by
  induction table with
  | nil =>
    by_cases h : k = name
    · simp [insert, get?, h]
    · have hb : (k == name) = false := by simpa using h
      simp [insert, get?, List.lookup_cons, h, hb]
  | cons e rest ih =>
    obtain ⟨k', v⟩ := e
    unfold insert
    by_cases h : k' = name
    · by_cases hk : k = name
      · simp [get?, h, hk]
      · have hb : (k == name) = false := by simpa using hk
        simp [get?, List.lookup_cons, h, hk, hb]
    · rw [if_neg h]
      by_cases hk : k = k'
      · subst hk
        simp [get?, h]
      · have hb : (k == k') = false := by simpa using hk
        simpa [get?, List.lookup_cons, hb] using ih

/-- Putting something in keeps the names and adds a new one at the end. -/
theorem names_insert (table : Table α) (name : Text) (value : α) :
    (table.insert name value).names
      = if name ∈ table.names then table.names else table.names ++ [name] := by
  induction table with
  | nil => simp [insert, names]
  | cons e rest ih =>
    obtain ⟨k', v⟩ := e
    unfold insert
    by_cases h : k' = name
    · simp [names, h]
    · rw [if_neg h]
      simp only [names, List.map_cons, List.mem_cons, Ne.symm h, false_or] at ih ⊢
      rw [ih]
      by_cases hn : name ∈ rest.map Prod.fst <;> simp [hn]

/-- Putting something in keeps the names distinct. -/
theorem nodup_names_insert {table : Table α} (h : table.names.Nodup) (name : Text) (value : α) :
    (table.insert name value).names.Nodup := by
  rw [names_insert]
  split
  · exact h
  · rename_i hn
    simp only [List.nodup_append, h, true_and]
    refine ⟨by simp, fun a ha b hb hab ↦ hn ?_⟩
    simp only [List.mem_singleton] at hb
    rw [← hb, ← hab]
    exact ha

/-- The names of a table that was written down are distinct. -/
theorem nodup_names_ofList (written : List (Text × α)) : (ofList written).names.Nodup := by
  suffices ∀ table : Table α, table.names.Nodup → (table.insertAll written).names.Nodup from
    this [] (by simp [names])
  induction written with
  | nil => exact fun _ h ↦ h
  | cons e es ih => exact fun table h ↦ ih _ (nodup_names_insert h e.1 e.2)

end Table

end MockApi
