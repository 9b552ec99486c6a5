import MockApi.Proofs.Value.Writing

/-!
# The compact text of a value

The writer refuses values that are nested beyond the limit and integers with too many digits. Its
text does not depend on the limit, so here it stands as a function of the value alone, and the
writer gives that text whenever it gives one.

Statements about documents are made for plain values: those that a document without doubles is read
as, up to what is asked of its keys and texts.
-/

namespace MockApi

variable {stack : Stack}

namespace Value

/-- A value that a document without doubles is read as: its integers are short, the keys of its
objects are distinct and satisfy `key`, and its texts satisfy `text`. -/
inductive IsPlain (key text : Text → Prop) : Value → Prop
  | null : IsPlain key text .null
  | bool (b : Bool) : IsPlain key text (.bool b)
  | int {n : Int} (h : IsShort n) : IsPlain key text (.number (.int n))
  | text {t : Text} (h : text t) : IsPlain key text (.text t)
  | list {items : List Value} (h : ∀ item ∈ items, IsPlain key text item) :
      IsPlain key text (.list 0 items)
  | object {entries : List (Text × Value)} (hdistinct : (Table.names entries).Nodup)
      (hkeys : ∀ entry ∈ entries, key entry.1)
      (h : ∀ entry ∈ entries, IsPlain key text entry.2) : IsPlain key text (.object 0 entries)

variable {key text : Text → Prop} {value : Value}

theorem IsPlain.mono {key' text' : Text → Prop} (h : value.IsPlain key text)
    (hkey : ∀ t, key t → key' t) (htext : ∀ t, text t → text' t) : value.IsPlain key' text' := by
  induction h with
  | null => exact .null
  | bool b => exact .bool b
  | int h => exact .int h
  | text h => exact .text (htext _ h)
  | list _ ih => exact .list ih
  | object hdistinct hkeys _ ih =>
    exact .object hdistinct (fun entry hentry ↦ hkey _ (hkeys entry hentry)) ih

theorem IsPlain.hasShortIntegers (h : value.IsPlain key text) : value.HasShortIntegers := by
  induction h with
  | null | bool | text => exact hasShortIntegers_of_scalar rfl (by simp [Value.int])
  | int h => exact hasShortIntegers_int.mpr h
  | list _ ih => exact hasShortIntegers_list.mpr ih
  | object _ _ _ ih => exact hasShortIntegers_object.mpr ih

theorem IsPlain.of_mem {entry : Text × Value} {entries : List (Text × Value)}
    (h : (Value.ofEntries entries).IsPlain key text) (hentry : entry ∈ entries) :
    entry.2.IsPlain key text := by
  cases h with
  | object _ _ h => exact h entry hentry

/-- Plain values are fit for JSON as they are. -/
theorem IsPlain.jsonReadyWithin (h : value.IsPlain key text) {levels : Nat}
    (hnested : value.NestedWithin levels) : value.jsonReadyWithin levels = .ok value := by
  induction h generalizing levels with
  | null | bool | int | text => cases levels <;> rfl
  | list _ ih =>
    cases levels with
    | zero => cases hnested
    | succ levels =>
      simp only [Value.jsonReadyWithin]
      rw [mapM_eq_ok_map (g := id) fun item hitem ↦ ih item hitem (hnested item hitem)]
      simp [ofItems]
  | object _ _ _ ih =>
    cases levels with
    | zero => cases hnested
    | succ levels =>
      simp only [Value.jsonReadyWithin]
      rw [mapM_eq_ok_map (g := id) fun entry hentry ↦ by
        rw [ih entry hentry (hnested entry hentry)]
        rfl]
      simp [ofEntries]

/-- Nothing but nesting keeps a value from being made fit for JSON. -/
theorem eq_nestingTooDeep_of_jsonReadyWithin {levels : Nat} {failure : Failure}
    (h : value.jsonReadyWithin levels = .error failure) : failure = .nestingTooDeep := by
  induction levels generalizing value with
  | zero =>
    cases value with
    | number x => cases x <;> cases h
    | list | object => cases h; rfl
    | _ => cases h
  | succ levels ih =>
    cases value with
    | number x => cases x <;> cases h
    | list identity items =>
      rcases bind_eq_error_iff.mp h with hitems | ⟨_, -, h⟩
      · obtain ⟨item, -, hitem⟩ := exists_of_mapM_eq_error hitems
        exact ih hitem
      · cases h
    | object identity entries =>
      rcases bind_eq_error_iff.mp h with hentries | ⟨_, -, h⟩
      · obtain ⟨entry, -, hentry⟩ := exists_of_mapM_eq_error hentries
        rcases bind_eq_error_iff.mp hentry with hvalue | ⟨_, -, h⟩
        · exact ih hvalue
        · cases h
      · cases h
    | _ => cases h

end Value

namespace Json

/-! ## The text -/

mutual

/-- The compact document of a value, however deeply it is nested and however long its integers. -/
def compactText : Value → Text
  | .null | .undefined => "null"
  | .bool b => if b then "true" else "false"
  | .number (.int n) => Text.ofInt n
  | .number (.double x) => DoubleNotation.json.write x
  | .text t => writeText false t
  | .list _ items => bracketed .compact 0 '['.toNat ']'.toNat (compactItems items)
  | .object _ entries => bracketed .compact 0 0x7B 0x7D (compactEntries entries)

/-- The compact documents of some items. -/
def compactItems : List Value → List Text
  | [] => []
  | item :: items => compactText item :: compactItems items

/-- The compact documents of some entries, with their keys in front. -/
def compactEntries : List (Text × Value) → List Text
  | [] => []
  | (key, value) :: entries =>
    (writeKey .compact key ++ compactText value) :: compactEntries entries

end

theorem compactItems_eq_map (items : List Value) : compactItems items = items.map compactText := by
  induction items with
  | nil => rfl
  | cons item items ih => rw [compactItems, ih, List.map_cons]

/-- The compact document of an entry, with its key in front. -/
def entryText (entry : Text × Value) : Text := writeKey .compact entry.1 ++ compactText entry.2

theorem compactEntries_eq_map (entries : List (Text × Value)) :
    compactEntries entries = entries.map entryText := by
  induction entries with
  | nil => rfl
  | cons entry entries ih => rw [compactEntries, ih, List.map_cons, entryText]

/-- Without line breaks, brackets are put around the items with commas between them. -/
theorem bracketed_compact (level opening closing : Nat) (items : List Text) :
    bracketed .compact level opening closing items
      = opening :: (Text.join [','.toNat] items ++ [closing]) := by
  cases items with
  | nil => rfl
  | cons item items => simp [bracketed, lineBreak, JsonStyle.compact]

theorem writeKey_compact (key : Text) :
    writeKey .compact key = writeText false key ++ [':'.toNat] := rfl

theorem compactText_list (identity : Nat) (items : List Value) :
    compactText (.list identity items)
      = '['.toNat :: (Text.join [','.toNat] (items.map compactText) ++ [']'.toNat]) := by
  rw [compactText, compactItems_eq_map, bracketed_compact]

theorem compactText_object (identity : Nat) (entries : List (Text × Value)) :
    compactText (.object identity entries)
      = 0x7B :: (Text.join [','.toNat] (entries.map entryText) ++ [0x7D]) := by
  rw [compactText, compactEntries_eq_map, bracketed_compact]

/-! ## The writer -/

/-- The writer gives the compact text of a value that it can write. -/
theorem writeWithin_eq {levels level : Nat} {value : Value} (hnested : value.NestedWithin levels)
    (hshort : value.HasShortIntegers) :
    writeWithin .compact levels level value = .ok (compactText value) := by
  induction levels generalizing value level with
  | zero =>
    cases value with
    | number x =>
      cases x with
      | int n => exact if_pos (Value.hasShortIntegers_int.mp hshort)
      | double x => rfl
    | list | object => cases hnested
    | _ => rfl
  | succ levels ih =>
    cases value with
    | number x =>
      cases x with
      | int n => exact if_pos (Value.hasShortIntegers_int.mp hshort)
      | double x => rfl
    | list identity items =>
      rw [Value.hasShortIntegers_list] at hshort
      rw [writeWithin, mapM_eq_ok_map fun item hitem ↦ ih (hnested item hitem) (hshort item hitem),
        compactText_list]
      simp [bracketed_compact]
    | object identity entries =>
      rw [Value.hasShortIntegers_object] at hshort
      have hentries : ∀ entry ∈ entries, (do
          return writeKey .compact entry.1 ++ (← writeWithin .compact levels (level + 1) entry.2))
            = Except.ok (entryText entry) := by
        intro entry hentry
        rw [ih (hnested entry hentry) (hshort entry hentry)]
        rfl
      simp only [writeWithin]
      rw [mapM_eq_ok_map hentries, compactText_object]
      simp [bracketed_compact]
    | _ => rfl

end Json

namespace Value

variable {key text : Text → Prop} {value : Value}

/-- The JSON text of a plain value is its compact text, unless the value is nested too deep. -/
theorem IsPlain.toJson (h : value.IsPlain key text) : value.toJson
    = okIf (value.NestedWithin Stack.ready) .nestingTooDeep (Json.compactText value) := by
  unfold Value.toJson
  by_cases hnested : value.NestedWithin Stack.ready
  · have hready : value.jsonReady = .ok value := h.jsonReadyWithin hnested
    rw [okIf_of hnested, hready, ok_bind]
    exact Json.writeWithin_eq (hnested.mono Stack.ready_le_writing) h.hasShortIntegers
  · rw [okIf_of_not hnested]
    cases hready : value.jsonReady with
    | ok ready => exact absurd (exists_jsonReadyWithin_eq_ok_iff.mp ⟨ready, hready⟩) hnested
    | error failure =>
      rw [eq_nestingTooDeep_of_jsonReadyWithin hready]
      rfl

/-- In place of a placeholder, plain values other than texts have their compact text, too. -/
theorem IsPlain.toReplacement (h : value.IsPlain key text) (htext : ∀ t, value ≠ .text t) :
    value.toReplacement
      = okIf (value.NestedWithin Stack.ready) .nestingTooDeep (Json.compactText value) := by
  by_cases hcontainer : value.isContainer = true
  · rw [Value.toReplacement, if_pos hcontainer, h.toJson]
  · rw [Bool.not_eq_true] at hcontainer
    rw [okIf_of (nestedWithin_of_scalar hcontainer), Value.toReplacement,
      if_neg (by simp [hcontainer]), toText]
    cases h with
    | text => exact absurd rfl (htext _)
    | null | bool =>
      rw [textWithin]
      rfl
    | int hn =>
      rw [textWithin]
      exact if_pos hn
    | list | object => cases hcontainer

end Value

end MockApi
