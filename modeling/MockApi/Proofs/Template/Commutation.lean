import MockApi.Proofs.Template.Documents

/-!
# Filling in the document and filling in its texts

A document whose texts are templates can be filled in as a whole, before it is read, or text by
text, after it. For a request without a body, whose parameters need no escapes, the two give the
same.

What could come between them is a placeholder that opens in one text and finds its closing braces in
another one or in the brackets of the document. Such a placeholder goes over a quotation mark, so
the name in it is the name of no parameter, and it stays as it is. What it goes over holds no
opening brace, and so nothing that would be replaced otherwise.
-/

namespace MockApi

variable {stack : Stack}

/-! ## Replacing the texts of a value -/

namespace Value

variable (f : Text → Text)

mutual

/-- The value with all texts in it replaced; the keys of objects stay. -/
def mapTexts : Value → Value
  | .text t => .text (f t)
  | .list identity items => .list identity (mapItemTexts items)
  | .object identity entries => .object identity (mapEntryTexts entries)
  | value => value

/-- Some items with all texts in them replaced. -/
def mapItemTexts : List Value → List Value
  | [] => []
  | item :: items => mapTexts item :: mapItemTexts items

/-- Some entries with all texts in their values replaced. -/
def mapEntryTexts : List (Text × Value) → List (Text × Value)
  | [] => []
  | (key, value) :: entries => (key, mapTexts value) :: mapEntryTexts entries

end

theorem mapTexts_list (identity : Nat) (items : List Value) :
    mapTexts f (.list identity items) = .list identity (items.map (mapTexts f)) := by
  rw [mapTexts]
  congr 1
  induction items with
  | nil => rfl
  | cons item items ih => rw [mapItemTexts, ih, List.map_cons]

theorem mapTexts_object (identity : Nat) (entries : List (Text × Value)) :
    mapTexts f (.object identity entries)
      = .object identity (entries.map fun entry ↦ (entry.1, mapTexts f entry.2)) := by
  rw [mapTexts]
  congr 1
  induction entries with
  | nil => rfl
  | cons entry entries ih => rw [mapEntryTexts, ih, List.map_cons]

variable {f} {value : Value} {key text text' : Text → Prop}

theorem NestedWithin.mapTexts {levels : Nat} (h : value.NestedWithin levels) :
    (value.mapTexts f).NestedWithin levels := by
  induction levels generalizing value with
  | zero =>
    cases value with
    | list | object => cases h
    | _ => exact nestedWithin_of_scalar rfl
  | succ levels ih =>
    cases value with
    | list identity items =>
      rw [mapTexts_list]
      exact List.forall_mem_map.mpr fun item hitem ↦ ih (h item hitem)
    | object identity entries =>
      rw [mapTexts_object]
      exact List.forall_mem_map.mpr fun entry hentry ↦ ih (h entry hentry)
    | _ => trivial

theorem IsPlain.mapTexts (h : value.IsPlain key text) (hf : ∀ t, text t → text' (f t)) :
    (value.mapTexts f).IsPlain key text' := by
  induction h with
  | null => exact .null
  | bool b => exact .bool b
  | int h => exact .int h
  | text h => exact .text (hf _ h)
  | list _ ih =>
    rw [mapTexts_list]
    exact .list (List.forall_mem_map.mpr ih)
  | object hdistinct hkeys _ ih =>
    rw [mapTexts_object]
    refine .object ?_ (List.forall_mem_map.mpr hkeys) (List.forall_mem_map.mpr ih)
    rw [Table.names, List.map_map]
    exact hdistinct

end Value

/-! ## Texts without escapes -/

namespace Json

/-- Inside a document, the text stands as it is: without quotation marks, backslashes and control
characters. -/
def Unescaped (t : Text) : Prop :=
  ∀ c ∈ t, 0x20 ≤ c ∧ c ≠ Text.quotationMark ∧ c ≠ Text.backslash

instance (t : Text) : Decidable (Unescaped t) := inferInstanceAs (Decidable (∀ c ∈ t, _))

theorem Unescaped.writeText_eq {t : Text} (h : Unescaped t) :
    writeText false t = Text.quotationMark :: (t ++ [Text.quotationMark]) := by
  have hescape : t.flatMap (escape false) = t := by
    induction t with
    | nil => rfl
    | cons c t ih =>
      obtain ⟨⟨hlow, hmark, hbackslash⟩, ht⟩ := List.forall_mem_cons.mp h
      rw [List.flatMap_cons, escape_eq_self hlow hmark hbackslash, ih ht, List.singleton_append]
  rw [writeText, hescape, List.cons_append]

theorem unescaped_ofInt (n : Int) : Unescaped (Text.ofInt n) := by
  intro c hc
  rcases Text.eq_or_isAsciiDigit_of_mem_ofInt hc with rfl | hdigit
  · decide
  · rw [Text.isAsciiDigit_iff] at hdigit
    simp only [Text.quotationMark, Text.backslash]
    omega

end Json

namespace Template

open Json

/-! ## The requests -/

/-- A request without a body whose parameters bring neither quotation marks nor escapes into a
document. -/
structure NeedsNoEscapes (context : RequestContext) : Prop where
  /-- There is no body. -/
  body : context.body = .null
  /-- The names of the parameters have no quotation mark in them. -/
  names : ∀ part, ∀ entry ∈ entriesOf (context.get part), Text.quotationMark ∉ entry.1
  /-- The values of the parameters are no lists and no objects. -/
  scalars : ∀ part, ∀ entry ∈ entriesOf (context.get part), entry.2.isContainer = false
  /-- Integers among the values are short, and texts have no escapes. -/
  plain : ∀ part, ∀ entry ∈ entriesOf (context.get part), entry.2.IsPlain (fun _ ↦ True) Unescaped

/-- A parameter is replaced by a text without escapes. -/
theorem exists_toReplacement_eq_ok {value : Value} (hscalar : value.isContainer = false)
    (h : value.IsPlain (fun _ ↦ True) Unescaped) :
    ∃ t, value.toReplacement = .ok t ∧ Unescaped t := by
  have hreplacement : value.toReplacement = value.textWithin Stack.texts := by
    rw [Value.toReplacement, if_neg (by simp [hscalar]), Value.toText]
  rw [hreplacement]
  cases h with
  | null => exact ⟨"null", by rw [Value.textWithin], by decide +kernel⟩
  | bool b => exact ⟨Value.boolText b, by rw [Value.textWithin], by cases b <;> decide +kernel⟩
  | @int n hn =>
    exact ⟨Text.ofInt n, by rw [Value.textWithin]; exact if_pos hn,
      unescaped_ofInt n⟩
  | @text t ht => exact ⟨t, by rw [Value.textWithin], ht⟩
  | list | object => cases hscalar

section

variable {context : RequestContext} (hcontext : NeedsNoEscapes context)

include hcontext

/-- A placeholder stays or is replaced by a text without escapes; it stays if it goes over a
quotation mark. -/
theorem exists_renderPiece_eq_ok {part : BoundName} {name? : Option Text} {source : Text}
    (h : IsPlaceholder part name? source) :
    ∃ t, renderPiece context context.body.isTruthy (.placeholder part name? source) = .ok t ∧
      (t = source ∨ Unescaped t ∧ Text.quotationMark ∉ source) := by
  cases name? with
  | none =>
    refine ⟨source, ?_, .inl rfl⟩
    rw [hcontext.body]
    cases part <;> rfl
  | some name =>
    cases hvalue : (entriesOf (context.get part)).get? name with
    | none => exact ⟨source, by rw [Piece.placeholder, renderPiece, hvalue], .inl rfl⟩
    | some value =>
      have hmem := Table.mem_of_get?_eq_some hvalue
      obtain ⟨t, ht, hunescaped⟩ := exists_toReplacement_eq_ok (hcontext.scalars part _ hmem)
        (hcontext.plain part _ hmem)
      refine ⟨t, ?_, .inr ⟨hunescaped, fun hmark ↦ ?_⟩⟩
      · rw [Piece.placeholder, renderPiece, hvalue]
        exact ht
      · obtain ⟨name', hname, hmark⟩ := h.exists_mem_name hmark
        cases hname
        exact hcontext.names part _ hmem hmark

theorem exists_fillIn_eq_ok (t : Text) : ∃ t', fillIn context t = .ok t' := by
  induction t using scan_induction with
  | nil => exact ⟨[], rfl⟩
  | verbatim c rest hnone ih =>
    obtain ⟨u, hu⟩ := ih
    exact ⟨c :: u, by rw [fillIn_cons hnone, hu, ok_bind]⟩
  | placeholder part name? source left hshape ih =>
    obtain ⟨u, hu⟩ := ih
    obtain ⟨t, ht, -⟩ := exists_renderPiece_eq_ok hcontext hshape
    exact ⟨t ++ u, by rw [fillIn_append hshape, ht, ok_bind, hu, ok_bind]⟩

end

/-! ## What filling in does to a text -/

section

variable {context : RequestContext} (hcontext : NeedsNoEscapes context) {f : Text → Text}
  (hf : ∀ t, fillIn context t = .ok (f t))

include hf

theorem filled_cons {c : Nat} {rest : Text} (h : placeholder? (c :: rest) = none) :
    f (c :: rest) = c :: f rest := by
  have hstep : fillIn context (c :: rest) = _ := fillIn_cons h
  rw [hf, hf, ok_bind] at hstep
  exact Except.ok.inj hstep

theorem filled_append {part : BoundName} {name? : Option Text} {source t : Text}
    (h : IsPlaceholder part name? source)
    (ht : renderPiece context context.body.isTruthy (.placeholder part name? source) = .ok t)
    (left : Text) : f (source ++ left) = t ++ f left := by
  have hstep : fillIn context (source ++ left) = _ := fillIn_append h left
  rw [hf, hf, ht, ok_bind, ok_bind] at hstep
  exact Except.ok.inj hstep

theorem filled_verbatim {t : Text} (h : openBrace ∉ t) (rest : Text) :
    f (t ++ rest) = t ++ f rest := by
  have hbecomes : Becomes context t True t := becomes_self h
  have hstep := hbecomes rest
  rw [hf, hf, okIf_of trivial, ok_bind, ok_bind] at hstep
  exact Except.ok.inj hstep

theorem filled_nil : f [] = [] := Except.ok.inj (hf []).symm

/-- A placeholder that goes on behind the text makes no difference to it. -/
theorem filled_eq_self {t u : Text} {part : BoundName} {name? : Option Text}
    (h : IsPlaceholder part name? (t ++ u)) (hnone : placeholder? t = none) : f t = t := by
  obtain ⟨tail, heq, htail⟩ := h.exists_eq_cons_cons
  rcases t with _ | ⟨c, _ | ⟨d, t⟩⟩
  · exact filled_nil hf
  · rw [filled_cons hf hnone, filled_nil hf]
  · obtain ⟨rfl, rfl, rfl⟩ : c = openBrace ∧ d = openBrace ∧ t ++ u = tail := by simpa using heq
    -- only the first two code points are opening braces, and neither starts a placeholder
    have ht : openBrace ∉ t := fun hmem ↦ htail (List.mem_append_left u hmem)
    have hsecond : placeholder? (openBrace :: t) = none := by
      refine placeholder?_eq_none fun rest hrest ↦ ?_
      rw [(List.cons.inj hrest).2] at ht
      exact ht List.mem_cons_self
    have hverbatim := filled_verbatim hf ht []
    rw [List.append_nil, filled_nil hf, List.append_nil] at hverbatim
    rw [filled_cons hf hnone, filled_cons hf hsecond, hverbatim]

include hcontext

/-- **Quotation marks part what is filled in.** A placeholder that opens in front of a quotation
mark and closes behind it stays, and so does everything in it. -/
theorem filled_append_quotationMark {t : Text} (h : Text.quotationMark ∉ t) (rest : Text) :
    f (t ++ Text.quotationMark :: rest) = f t ++ Text.quotationMark :: f rest := by
  have hmark (rest : Text) : f (Text.quotationMark :: rest) = Text.quotationMark :: f rest :=
    filled_verbatim hf (t := [Text.quotationMark]) (by decide) rest
  induction t using scan_induction with
  | nil => rw [List.nil_append, filled_nil hf, hmark, List.nil_append]
  | placeholder part name? source left hshape ih =>
    obtain ⟨t, ht, -⟩ := exists_renderPiece_eq_ok hcontext hshape
    have hleft : Text.quotationMark ∉ left := fun hmem ↦ h (List.mem_append_right source hmem)
    rw [List.append_assoc, filled_append hf hshape ht, filled_append hf hshape ht, ih hleft,
      List.append_assoc]
  | verbatim c t hnone ih =>
    cases hfound : placeholder? (c :: t ++ Text.quotationMark :: rest) with
    | none =>
      have ht : Text.quotationMark ∉ t := fun hmem ↦ h (List.mem_cons_of_mem c hmem)
      rw [List.cons_append] at hfound ⊢
      rw [filled_cons hf hfound, filled_cons hf hnone, ih ht, List.cons_append]
    | some found =>
      obtain ⟨part, name?, left⟩ := found
      -- this one closes behind the mark
      obtain ⟨inside, hshape, rfl⟩ := exists_isPlaceholder_of_append hfound hnone
      obtain ⟨u, hu, hsource⟩ := exists_renderPiece_eq_ok hcontext hshape
      obtain rfl := hsource.resolve_right fun hunescaped ↦
        hunescaped.2 (List.mem_append_right _ List.mem_cons_self)
      have hinside : openBrace ∉ inside := hshape.notMem_of_append
      calc f (c :: t ++ Text.quotationMark :: (inside ++ left))
          = f (c :: t ++ Text.quotationMark :: inside ++ left) := by simp
        _ = c :: t ++ Text.quotationMark :: inside ++ f left := filled_append hf hshape hu left
        _ = c :: t ++ Text.quotationMark :: f (inside ++ left) := by
          rw [filled_verbatim hf hinside]
          simp
        _ = f (c :: t) ++ Text.quotationMark :: f (inside ++ left) := by
          rw [filled_eq_self hf hshape hnone]

theorem unescaped_filled {t : Text} (h : Unescaped t) : Unescaped (f t) := by
  induction t using scan_induction with
  | nil => rwa [filled_nil hf]
  | verbatim c rest hnone ih =>
    obtain ⟨hc, hrest⟩ := List.forall_mem_cons.mp h
    rw [filled_cons hf hnone]
    exact List.forall_mem_cons.mpr ⟨hc, ih hrest⟩
  | placeholder part name? source left hshape ih =>
    obtain ⟨hsource, hleft⟩ := List.forall_mem_append.mp h
    obtain ⟨t, ht, hor⟩ := exists_renderPiece_eq_ok hcontext hshape
    have hunescaped : Unescaped t := by
      rcases hor with rfl | ⟨hunescaped, -⟩
      · exact hsource
      · exact hunescaped
    rw [filled_append hf hshape ht]
    exact List.forall_mem_append.mpr ⟨hunescaped, ih hleft⟩

/-- A text of a document is filled in between its quotation marks. -/
theorem becomes_writeText {t : Text} (h : Unescaped t) :
    Becomes context (writeText false t) True (writeText false (f t)) := by
  intro rest
  have hmark : Text.quotationMark ∉ t := fun hmem ↦ (h _ hmem).2.1 rfl
  have hopening (rest : Text) : f (Text.quotationMark :: rest) = Text.quotationMark :: f rest :=
    filled_verbatim hf (t := [Text.quotationMark]) (by decide) rest
  rw [h.writeText_eq, (unescaped_filled hcontext hf h).writeText_eq, hf, hf, okIf_of trivial,
    ok_bind, ok_bind, List.cons_append, List.append_assoc, List.singleton_append, hopening,
    filled_append_quotationMark hcontext hf hmark]
  simp

/-- A document is filled in text by text. -/
theorem becomes_compactText {value : Value} (h : value.IsPlain (openBrace ∉ ·) Unescaped) :
    Becomes context (compactText value) True (compactText (value.mapTexts f)) := by
  induction h with
  | null => exact becomes_self (by decide)
  | bool b => cases b <;> exact becomes_self (by decide)
  | @int n hn =>
    have hplain : (Value.int n).IsPlain (openBrace ∉ ·) (openBrace ∉ ·) := .int hn
    exact becomes_self (notMem_compactText hplain rfl)
  | text h => exact becomes_writeText hcontext hf h
  | @list items _ ih =>
    rw [Value.mapTexts_list, compactText_list, compactText_list, List.map_map]
    exact (becomes_list ih).of_iff (by simp)
  | @object entries _ hkeys _ ih =>
    rw [Value.mapTexts_object, compactText_object, compactText_object, List.map_map]
    exact (becomes_object hkeys ih).of_iff (by simp)

end

/-- **Filling in commutes with reading.** A document whose texts have no escapes is filled in and
read as the value with each of its texts filled in, for a request that needs no escapes. -/
theorem body_toJson {value : Value} {context : RequestContext}
    (hvalue : value.IsPlain (openBrace ∉ ·) Unescaped) (hready : value.NestedWithin Stack.ready)
    (hreading : value.NestedWithin Stack.reading) (hcontext : NeedsNoEscapes context)
    (status delay : Nat) :
    ∃ f : Text → Text, (∀ t, render .singlePass t context = .ok (f t)) ∧
      ∃ document, value.toJson = .ok document ∧
        Dispatch.body .singlePass ⟨status, delay, document⟩ context
          = .ok (.ok (value.mapTexts f)) := by
  have htruth : context.body.isHuge = false := by rw [hcontext.body]; rfl
  choose f hf using exists_fillIn_eq_ok hcontext
  refine ⟨f, fun t ↦ (renderSinglePass_eq_fillIn htruth t).trans (hf t), Json.compactText value,
    hvalue.toJson.trans (okIf_of hready), ?_⟩
  have hplain : (value.mapTexts f).IsPlain (openBrace ∉ ·) Unescaped :=
    hvalue.mapTexts fun t ↦ unescaped_filled hcontext hf
  rw [(becomes_compactText hcontext hf hvalue).body_eq htruth hplain]
  exact okIf_of ⟨trivial, hreading.mapTexts⟩

/-- Two texts of a list between which a placeholder seems to stand, and one with a parameter. -/
theorem body_toJson_list :
    letI : Stack := .usual
    let value : Value := .ofItems [.text "\x7b\x7bpath.", .text "id\x7d\x7d",
      .text "no. \x7b\x7b path.id \x7d\x7d"]
    let context : RequestContext := ⟨.ofEntries [("id", .text "7")], .null, .null⟩
    value.IsPlain (openBrace ∉ ·) Unescaped ∧ value.NestedWithin Stack.ready ∧
      value.NestedWithin Stack.reading ∧ NeedsNoEscapes context ∧
      ∃ document, value.toJson = .ok document ∧
        Dispatch.body .singlePass ⟨200, 0, document⟩ context = .ok (.ok (.ofItems
          [.text "\x7b\x7bpath.", .text "id\x7d\x7d", .text "no. 7"])) := by
  intro value context
  have hvalue : value.IsPlain (openBrace ∉ ·) Unescaped :=
    .list (List.forall_mem_cons.mpr ⟨.text (by decide), List.forall_mem_cons.mpr
      ⟨.text (by decide), List.forall_mem_singleton.mpr (.text (by decide))⟩⟩)
  have hnested : value.NestedWithin 1 := by
    simp [value, Value.ofItems, Value.NestedWithin]
  have hentries : ∀ part, ∀ entry ∈ entriesOf (context.get part),
      entry = (Text.ofString "id", Value.text "7") := by
    intro part entry hentry
    cases part with
    | path => exact List.mem_singleton.mp hentry
    | query | body => cases hentry
  have hcontext : NeedsNoEscapes context :=
    { body := rfl
      names := fun part entry hentry ↦ by rw [hentries part entry hentry]; decide
      scalars := fun part entry hentry ↦ by rw [hentries part entry hentry]; rfl
      plain := fun part entry hentry ↦ by
        rw [hentries part entry hentry]
        exact .text (by decide) }
  let stack : Stack := .usual
  have hready : value.NestedWithin Stack.ready := hnested.mono (by decide)
  have hreading : value.NestedWithin Stack.reading := hnested.mono (by decide)
  refine ⟨hvalue, hready, hreading, hcontext, ?_⟩
  obtain ⟨f, hf, document, hdocument, hbody⟩ :=
    body_toJson hvalue hready hreading hcontext 200 0
  have hfilled {t t' : Text} (h : render .singlePass t context = .ok t') : f t = t' :=
    Except.ok.inj ((hf t).symm.trans h)
  have hopen : f "\x7b\x7bpath." = "\x7b\x7bpath." := hfilled rfl
  have hclosed : f "id\x7d\x7d" = "id\x7d\x7d" := hfilled rfl
  have hnumber : f "no. \x7b\x7b path.id \x7d\x7d" = "no. 7" := hfilled rfl
  have hmap : value.mapTexts f = .ofItems
      [.text "\x7b\x7bpath.", .text "id\x7d\x7d", .text "no. 7"] := by
    simp only [value, Value.ofItems, Value.mapTexts_list, List.map_cons, List.map_nil,
      Value.mapTexts, hopen, hclosed, hnumber]
  exact ⟨document, hdocument, by rw [hbody, hmap]⟩

end Template

end MockApi
