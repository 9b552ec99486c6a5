import MockApi.Proofs.Template.Documents

/-!
# Drafts of responses

A draft is a JSON document some of whose values are left to the request: in their places stand holes
for the body or for entries of the body. Written as a template, a draft is a document with
placeholders in it; filled in, it is a value.

The two fit together. The response to a request with an object for a body is the draft filled in, as
long as what goes into the holes and the whole are not nested too deep; the placeholder of a hole
may stand right in front of a closing brace of the document.
-/

namespace MockApi

variable {stack : Stack}

/-! ## Deep nesting -/

namespace Value

theorem isPlain_nested {key text : Text → Prop} (n : Nat) : (nested n).IsPlain key text := by
  induction n with
  | zero => exact .list (List.forall_mem_nil _)
  | succ n ih => exact .list (List.forall_mem_singleton.mpr ih)

theorem nested_ne_text (n : Nat) (t : Text) : nested n ≠ .text t := by
  cases n <;> exact Value.noConfusion

end Value

/-! ## Drafts -/

/-- A place in a document that is left to the request. -/
inductive Hole
  /-- The place of the body. -/
  | body
  /-- The place of an entry of the body. -/
  | entry (name : Text)
deriving DecidableEq, Repr

namespace Hole

/-- The placeholder for a hole. -/
def source : Hole → Text
  | body => Template.openBrace :: Template.openBrace ::
      (BoundName.body.spelling ++ [Template.closeBrace, Template.closeBrace])
  | entry name => Template.openBrace :: Template.openBrace ::
      (BoundName.body.spelling ++ '.'.toNat :: (name ++ [Template.closeBrace, Template.closeBrace]))

/-- What a body with these entries puts into a hole. -/
def value (entries : Entries) : Hole → Value
  | body => .ofEntries entries
  | entry name => (entries.get? name).getD .undefined

end Hole

/-- A document with holes. -/
inductive Draft
  /-- A value other than a list and an object. -/
  | scalar (value : Value)
  /-- A hole. -/
  | hole (hole : Hole)
  /-- A list. -/
  | list (items : List Draft)
  /-- An object. -/
  | object (entries : List (Text × Draft))

namespace Draft

section Fold

variable {α : Type} (scalar : Value → α) (hole : Hole → α) (list : List α → α)
  (object : List (Text × α) → α)

mutual

/-- What a draft amounts to, from what its parts do. -/
def fold : Draft → α
  | .scalar value => scalar value
  | .hole h => hole h
  | .list items => list (foldItems items)
  | .object entries => object (foldEntries entries)

/-- What some items amount to. -/
def foldItems : List Draft → List α
  | [] => []
  | item :: items => fold item :: foldItems items

/-- What some entries amount to, under their keys. -/
def foldEntries : List (Text × Draft) → List (Text × α)
  | [] => []
  | (key, draft) :: entries => (key, fold draft) :: foldEntries entries

end

theorem fold_list (items : List Draft) : fold scalar hole list object (.list items)
    = list (items.map (fold scalar hole list object)) := by
  rw [fold]
  congr 1
  induction items with
  | nil => rfl
  | cons item items ih => rw [foldItems, ih, List.map_cons]

theorem fold_object (entries : List (Text × Draft)) : fold scalar hole list object (.object entries)
    = object (entries.map fun entry ↦ (entry.1, fold scalar hole list object entry.2)) := by
  rw [fold]
  congr 1
  induction entries with
  | nil => rfl
  | cons entry entries ih => rw [foldEntries, ih, List.map_cons]

end Fold

/-- The template of a draft: its compact document, with a placeholder for each hole. -/
def write : Draft → Text :=
  fold Json.compactText Hole.source
    (fun items ↦ '['.toNat :: (Text.join [','.toNat] items ++ [']'.toNat]))
    (fun entries ↦ 0x7B :: (Text.join [','.toNat]
      (entries.map fun entry ↦ Json.writeKey .compact entry.1 ++ entry.2) ++ [0x7D]))

/-- The draft with its holes filled from a body with these entries. -/
def fill (body : Entries) : Draft → Value :=
  fold id (Hole.value body) Value.ofItems Value.ofEntries

/-- What goes into the holes is nested no more than `levels` deep. -/
def FillsWithin (levels : Nat) (body : Entries) : Draft → Prop :=
  fold (fun _ ↦ True) (fun hole ↦ (hole.value body).NestedWithin levels)
    (fun items ↦ ∀ item ∈ items, item) (fun entries ↦ ∀ entry ∈ entries, entry.2)

/-- A draft that a body with these entries has something for, of plain values. No key and no text
has an opening brace in it. The holes for entries name entries that are no texts, without braces and
without white space around the name. -/
inductive Fits (body : Entries) : Draft → Prop
  | scalar {value : Value}
      (h : value.IsPlain (Template.openBrace ∉ ·) (Template.openBrace ∉ ·))
      (hscalar : value.isContainer = false) : Fits body (.scalar value)
  | body : Fits body (.hole .body)
  | entry {name : Text} {value : Value} (hvalue : body.get? name = some value)
      (htext : ∀ t, value ≠ .text t) (hbraces : ∀ c ∈ name, Template.isBrace c = false)
      (htrim : Text.trim name = name) : Fits body (.hole (.entry name))
  | list {items : List Draft} (h : ∀ item ∈ items, Fits body item) : Fits body (.list items)
  | object {entries : List (Text × Draft)} (hdistinct : (Table.names entries).Nodup)
      (hkeys : ∀ entry ∈ entries, Template.openBrace ∉ entry.1)
      (h : ∀ entry ∈ entries, Fits body entry.2) : Fits body (.object entries)

theorem fill_list (body : Entries) (items : List Draft) :
    fill body (.list items) = .list 0 (items.map (fill body)) :=
  fold_list ..

theorem fill_object (body : Entries) (entries : List (Text × Draft)) : fill body (.object entries)
    = .object 0 (entries.map fun entry ↦ (entry.1, fill body entry.2)) :=
  fold_object ..

theorem fill_entry {body : Entries} {name : Text} {value : Value}
    (h : body.get? name = some value) : fill body (.hole (.entry name)) = value := by
  simp [fill, fold, Hole.value, h]

theorem write_list (items : List Draft) : write (.list items)
    = '['.toNat :: (Text.join [','.toNat] (items.map write) ++ [']'.toNat]) :=
  fold_list ..

theorem write_object (entries : List (Text × Draft)) : write (.object entries)
    = 0x7B :: (Text.join [','.toNat]
      (entries.map fun entry ↦ Json.writeKey .compact entry.1 ++ write entry.2) ++ [0x7D]) := by
  rw [write, fold_object, List.map_map]
  rfl

example : write (.object [("by", .hole (.entry "user"))])
    = Text.ofString "\x7b\"by\":\x7b\x7bbody.user\x7d\x7d\x7d" := rfl

theorem fillsWithin_list {levels : Nat} {body : Entries} {items : List Draft} :
    FillsWithin levels body (.list items) ↔ ∀ item ∈ items, FillsWithin levels body item := by
  rw [FillsWithin, fold_list, List.forall_mem_map]

theorem fillsWithin_object {levels : Nat} {body : Entries} {entries : List (Text × Draft)} :
    FillsWithin levels body (.object entries)
      ↔ ∀ entry ∈ entries, FillsWithin levels body entry.2 := by
  rw [FillsWithin, fold_object, List.forall_mem_map]

/-! ## Filled drafts -/

variable {draft : Draft} {entries : Entries} {key text : Text → Prop}

/-- What a plain body puts into the holes is plain. -/
theorem Fits.isPlain_fill (h : draft.Fits entries)
    (hbody : (Value.ofEntries entries).IsPlain key text) :
    (draft.fill entries).IsPlain (fun _ ↦ True) (fun _ ↦ True) := by
  have htrivial {value : Value} {key text : Text → Prop} (h : value.IsPlain key text) :
      value.IsPlain (fun _ ↦ True) (fun _ ↦ True) := h.mono (fun _ _ ↦ trivial) fun _ _ ↦ trivial
  induction h with
  | scalar h => exact htrivial h
  | body => exact htrivial hbody
  | @entry name value hvalue =>
    rw [fill_entry hvalue]
    exact htrivial (hbody.of_mem (Table.mem_of_get?_eq_some hvalue))
  | list _ ih =>
    rw [fill_list]
    exact .list (List.forall_mem_map.mpr ih)
  | object hdistinct hkeys _ ih =>
    rw [fill_object]
    -- the keys are those of the draft
    refine .object ?_ (fun _ _ ↦ trivial) (List.forall_mem_map.mpr ih)
    rw [Table.names, List.map_map]
    exact hdistinct

/-- No hole holds more levels than the whole. -/
theorem Fits.fillsWithin (h : draft.Fits entries) {levels levels' : Nat}
    (hnested : (draft.fill entries).NestedWithin levels) (hle : levels ≤ levels') :
    draft.FillsWithin levels' entries := by
  induction h generalizing levels with
  | scalar => trivial
  | body | entry => exact hnested.mono hle
  | list _ ih =>
    rw [fill_list] at hnested
    rw [fillsWithin_list]
    cases levels with
    | zero => cases hnested
    | succ levels =>
      exact fun item hitem ↦ ih item hitem (List.forall_mem_map.mp hnested item hitem) (by omega)
  | object _ _ _ ih =>
    rw [fill_object] at hnested
    rw [fillsWithin_object]
    cases levels with
    | zero => cases hnested
    | succ levels =>
      exact fun entry hentry ↦
        ih entry hentry (List.forall_mem_map.mp hnested entry hentry) (by omega)

/-! ## Filling in -/

section Holes

open Template

variable {context : RequestContext} (hcontext : context.body = .ofEntries entries)
  (hbody : (Value.ofEntries entries).IsPlain key text)

include hcontext hbody

/-- A hole for the body is replaced by the body, even if that has no entries. -/
theorem becomes_body : Becomes context Hole.body.source
    ((Value.ofEntries entries).NestedWithin Stack.ready)
    (Json.compactText (.ofEntries entries)) := by
  have hshape : IsPlaceholder .body none (openBrace :: openBrace ::
      ([] ++ (BoundName.body.spelling ++ ([] ++ [closeBrace, closeBrace])))) :=
    .whole (List.forall_mem_nil _) (List.forall_mem_nil _)
  refine becomes_of_isPlaceholder hshape ?_
  -- every object counts as true
  have htruthy : context.body.isTruthy = true := by
    rw [hcontext]
    rfl
  rw [← hbody.toJson, ← hcontext, Piece.placeholder, renderPiece, if_pos htruthy]

/-- A hole for an entry is replaced by what stands under exactly its name. -/
theorem becomes_entry {name : Text} {value : Value} (hvalue : entries.get? name = some value)
    (htext : ∀ t, value ≠ .text t) (hbraces : ∀ c ∈ name, isBrace c = false)
    (htrim : Text.trim name = name) : Becomes context (Hole.entry name).source
      (value.NestedWithin Stack.ready) (Json.compactText value) := by
  have hshape : IsPlaceholder .body (some (Text.trim name)) (openBrace :: openBrace ::
      ([] ++ (BoundName.body.spelling ++ '.'.toNat :: (name ++ [closeBrace, closeBrace])))) :=
    .entry (List.forall_mem_nil _) hbraces
  have hplain : value.IsPlain key text := hbody.of_mem (Table.mem_of_get?_eq_some hvalue)
  have hfound : (entriesOf (context.get .body)).get? name = some value := by
    rw [RequestContext.get, hcontext]
    exact hvalue
  rw [htrim] at hshape
  refine becomes_of_isPlaceholder hshape ?_
  rw [← hplain.toReplacement htext, Piece.placeholder, renderPiece, hfound]

/-- A draft becomes the compact document of the value it is filled to. -/
theorem Fits.becomes_write (h : draft.Fits entries) : Becomes context draft.write
    (draft.FillsWithin Stack.ready entries) (Json.compactText (draft.fill entries)) := by
  induction h with
  | scalar h hscalar => exact becomes_self (Json.notMem_compactText h hscalar)
  | body => exact becomes_body hcontext hbody
  | @entry name value hvalue htext hbraces htrim =>
    rw [FillsWithin, fold, Hole.value, fill_entry hvalue, hvalue]
    exact becomes_entry hcontext hbody hvalue htext hbraces htrim
  | @list items _ ih =>
    rw [write_list, fill_list, Json.compactText_list, List.map_map]
    exact (becomes_list ih).of_iff fillsWithin_list.symm
  | @object es _ hkeys _ ih =>
    rw [write_object, fill_object, Json.compactText_object, List.map_map]
    exact (becomes_object hkeys ih).of_iff fillsWithin_object.symm

end Holes

/-- **The response to a draft.** To a request with an object for a body, the body of the response is
the draft filled in, if what goes into the holes can be made ready for JSON and the whole can be
read. -/
theorem body_write (h : draft.Fits entries) (hbody : (Value.ofEntries entries).IsPlain key text)
    (hholes : draft.FillsWithin Stack.ready entries)
    (hnested : (draft.fill entries).NestedWithin Stack.reading) (status delay : Nat)
    (path query : Value) :
    Dispatch.body .singlePass ⟨status, delay, draft.write⟩ ⟨path, query, .ofEntries entries⟩
      = .ok (.ok (draft.fill entries)) := by
  have hbecomes : Template.Becomes ⟨path, query, .ofEntries entries⟩ draft.write
      (draft.FillsWithin Stack.ready entries) (Json.compactText (draft.fill entries)) :=
    h.becomes_write rfl hbody
  rw [hbecomes.body_eq rfl (h.isPlain_fill hbody), okIf_of ⟨hholes, hnested⟩]

/-- A list of the whole body and of an object whose one entry is an entry of the body. -/
theorem body_write_user :
    letI : Stack := .usual
    let user : Value := .ofEntries [("name", .text "Ann"), ("langs", .ofItems [.text "en"])]
    let entries : Entries := [("id", .int 7), ("user", user)]
    let draft : Draft := .list [.hole .body, .object [("by", .hole (.entry "user"))]]
    draft.Fits entries ∧ (Value.ofEntries entries).IsPlain (fun _ ↦ True) (fun _ ↦ True) ∧
      draft.FillsWithin Stack.ready entries ∧ (draft.fill entries).NestedWithin Stack.reading ∧
      Dispatch.body .singlePass ⟨200, 0, draft.write⟩ ⟨.null, .null, .ofEntries entries⟩
        = .ok (.ok (.ofItems [.ofEntries entries, .ofEntries [("by", user)]])) := by
  intro user entries draft
  have huser : user.IsPlain (fun _ ↦ True) (fun _ ↦ True) :=
    .object (by decide) (fun _ _ ↦ trivial) (List.forall_mem_cons.mpr ⟨.text trivial,
      List.forall_mem_singleton.mpr (.list (List.forall_mem_singleton.mpr (.text trivial)))⟩)
  have hbody : (Value.ofEntries entries).IsPlain (fun _ ↦ True) (fun _ ↦ True) :=
    .object (by decide) (fun _ _ ↦ trivial) (List.forall_mem_cons.mpr
      ⟨.int (Value.isShort_of_lt (by decide)), List.forall_mem_singleton.mpr huser⟩)
  have hentry : (Draft.hole (.entry "user")).Fits entries :=
    .entry rfl (fun t ↦ by simp [user, Value.ofEntries]) (by decide) (by decide)
  have hfits : draft.Fits entries :=
    .list (List.forall_mem_cons.mpr ⟨.body, List.forall_mem_singleton.mpr
      (.object (by decide) (by decide) (List.forall_mem_singleton.mpr hentry))⟩)
  have hfill : draft.fill entries = .ofItems [.ofEntries entries, .ofEntries [("by", user)]] := rfl
  have hnested : (draft.fill entries).NestedWithin 4 := by
    rw [hfill]
    simp [entries, user, Value.ofEntries, Value.ofItems, Value.int, Value.NestedWithin]
  let stack : Stack := .usual
  have hholes : draft.FillsWithin Stack.ready entries := hfits.fillsWithin hnested (by decide)
  have hreading : (draft.fill entries).NestedWithin Stack.reading := hnested.mono (by decide)
  refine ⟨hfits, hbody, hholes, hreading, ?_⟩
  rw [body_write hfits hbody hholes hreading, hfill]

/-- A body that is nested beyond the limit has no place in any response, not even one that is
nothing but a hole. -/
theorem body_write_nested :
    letI : Stack := .usual
    let entries : Entries := [("a", .nested 3000)]
    (Draft.hole (.entry "a")).Fits entries ∧
      (Value.ofEntries entries).IsPlain (fun _ ↦ True) (fun _ ↦ True) ∧
      Dispatch.body .singlePass ⟨200, 0, (Draft.hole (.entry "a")).write⟩
        ⟨.null, .null, .ofEntries entries⟩ = .error .nestingTooDeep := by
  intro entries
  have hplain : (Value.nested 3000).IsPlain (fun _ ↦ True) (fun _ ↦ True) :=
    Value.isPlain_nested 3000
  have hbody : (Value.ofEntries entries).IsPlain (fun _ ↦ True) (fun _ ↦ True) :=
    .object (by simp [entries, Table.names]) (fun _ _ ↦ trivial)
      (List.forall_mem_singleton.mpr hplain)
  have hvalue : entries.get? "a" = some (.nested 3000) := by simp [entries, Table.get?]
  have htext : ∀ t, Value.nested 3000 ≠ .text t := Value.nested_ne_text 3000
  let stack : Stack := .usual
  have hdeep : ¬(Value.nested 3000).NestedWithin Stack.ready := by
    rw [Value.nestedWithin_nested]
    decide
  refine ⟨.entry hvalue htext (by decide) (by decide), hbody, ?_⟩
  have hbecomes : Template.Becomes ⟨.null, .null, .ofEntries entries⟩ (Hole.entry "a").source
      ((Value.nested 3000).NestedWithin Stack.ready) (Json.compactText (.nested 3000)) :=
    becomes_entry rfl hbody hvalue htext (by decide) (by decide)
  exact (hbecomes.body_eq rfl hplain).trans (okIf_of_not fun hboth ↦ hdeep hboth.1)

end Draft

end MockApi
