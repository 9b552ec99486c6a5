import MockApi.Proofs.Template.Filling
import MockApi.Proofs.Template.Scanning

/-!
# What a single pass makes of a template

Before any request is known, a template falls apart in exactly one way: into code points that stand
for themselves and references to data, where a reference is taken at the first place where one
starts. Filling in never goes back on that. Each reference is replaced by its datum or by its own
source, whatever the other references are replaced by, and the names of the references are the ones
that the template is listed with.
-/

namespace MockApi

variable {stack : Stack}

namespace Template

/-- A part of a template for a single pass. -/
inductive Segment
  /-- A code point that stands for itself. -/
  | literal (c : Nat)
  /-- A reference to an entry of a part of the request, with its source. -/
  | reference (part : BoundName) (name source : Text)
  /-- A reference to the whole body, with its source. -/
  | wholeBody (source : Text)
deriving DecidableEq, Repr

namespace Segment

/-- The text that a segment was cut from. -/
def source : Segment → Text
  | literal c => [c]
  | reference _ _ source => source
  | wholeBody source => source

/-- The value that takes the place of a segment, if one does. -/
def value? (context : RequestContext) : Segment → Option Value
  | literal _ => none
  | reference part name _ => (entriesOf (context.get part)).get? name
  | wholeBody _ => if context.body.isTruthy then some context.body else none

/-- The text that takes the place of a segment: the formatted value or the source. -/
def fill [Stack] (context : RequestContext) (segment : Segment) : Except Failure Text :=
  match segment, segment.value? context with
  | _, none => .ok segment.source
  | wholeBody _, some value => value.toJson
  | _, some value => value.toReplacement

end Segment

/-! ## The one way to cut a template -/

/-- A reference starts the text. -/
def StartsReference (t : Text) : Prop :=
  ∃ part name? source left, IsPlaceholder part name? source ∧ (name? = none → part = .body) ∧
    t = source ++ left

/-- The segments make up the text, and each reference is taken at the first place where one
starts. -/
inductive IsCut : Text → List Segment → Prop
  | nil : IsCut [] []
  | literal {c : Nat} {rest : Text} {segments : List Segment}
      (hnone : ¬StartsReference (c :: rest)) (h : IsCut rest segments) :
      IsCut (c :: rest) (.literal c :: segments)
  | reference {part : BoundName} {name source left : Text} {segments : List Segment}
      (hshape : IsPlaceholder part (some name) source) (h : IsCut left segments) :
      IsCut (source ++ left) (.reference part name source :: segments)
  | wholeBody {source left : Text} {segments : List Segment}
      (hshape : IsPlaceholder .body none source) (h : IsCut left segments) :
      IsCut (source ++ left) (.wholeBody source :: segments)

theorem not_startsReference_of_ne {c : Nat} (hc : c ≠ openBrace) (rest : Text) :
    ¬StartsReference (c :: rest) := by
  rintro ⟨part, name?, source, left, hshape, -, heq⟩
  obtain ⟨tail, rfl, -⟩ := hshape.exists_eq_cons_cons
  exact hc (List.cons.inj heq).1

theorem not_startsReference_of_second_ne {c d : Nat} (hd : d ≠ openBrace) (rest : Text) :
    ¬StartsReference (c :: d :: rest) := by
  rintro ⟨part, name?, source, left, hshape, -, heq⟩
  obtain ⟨tail, rfl, -⟩ := hshape.exists_eq_cons_cons
  exact hd (List.cons.inj (List.cons.inj heq).2).1

/-- Where two placeholders start the same text, they are the same. -/
theorem IsPlaceholder.eq_of_append_eq {part part' : BoundName} {name? name?' : Option Text}
    {source source' left left' : Text} (h : IsPlaceholder part name? source)
    (h' : IsPlaceholder part' name?' source') (heq : source ++ left = source' ++ left') :
    part = part' ∧ name? = name?' := by
  have hfound : placeholder? (source ++ left) = some (part, name?, left) :=
    placeholder?_eq_some_iff.mpr ⟨source, h, rfl⟩
  have hfound' : placeholder? (source ++ left) = some (part', name?', left') :=
    placeholder?_eq_some_iff.mpr ⟨source', h', heq⟩
  rw [hfound] at hfound'
  simp only [Option.some.injEq, Prod.mk.injEq] at hfound'
  exact ⟨hfound'.1, hfound'.2.1⟩

/-- A placeholder for the whole path or query is no reference. -/
theorem not_startsReference_of_isPlaceholder {part : BoundName} {source : Text}
    (h : IsPlaceholder part none source) (hpart : part ≠ .body) (left : Text) :
    ¬StartsReference (source ++ left) := by
  rintro ⟨part', name?, source', left', hshape, hbody, heq⟩
  obtain ⟨rfl, rfl⟩ := h.eq_of_append_eq hshape heq
  exact hpart (hbody rfl)

/-- The segments of a piece: placeholders for the whole path or query stand for themselves. -/
def segmentsOf : Piece → List Segment
  | .verbatim c => [.literal c]
  | .entry part name source => [.reference part name source]
  | .whole .body source => [.wholeBody source]
  | .whole _ source => source.map .literal

/-- The segments of a template. -/
def segments (template : Text) : List Segment := (pieces template).flatMap segmentsOf

theorem segments_of_pieces_eq_cons {t rest : Text} {piece : Piece}
    (h : pieces t = piece :: pieces rest) : segments t = segmentsOf piece ++ segments rest := by
  rw [segments, segments, h, List.flatMap_cons]

theorem segments_append_of_notMem {t : Text} (h : openBrace ∉ t) (rest : Text) :
    segments (t ++ rest) = t.map .literal ++ segments rest := by
  induction t with
  | nil => rfl
  | cons c t ih =>
    rw [List.mem_cons, not_or] at h
    have hnone : placeholder? (c :: (t ++ rest)) = none :=
      placeholder?_eq_none fun left heq ↦ h.1 (List.cons.inj heq).1.symm
    rw [List.cons_append, segments_of_pieces_eq_cons (pieces_cons hnone), ih h.2]
    rfl

theorem segments_append {part : BoundName} {name? : Option Text} {source : Text}
    (h : IsPlaceholder part name? source) (left : Text) :
    segments (source ++ left) = segmentsOf (.placeholder part name? source) ++ segments left :=
  segments_of_pieces_eq_cons (pieces_append h left)

/-- Where no reference starts, one code point stands for itself, even if it opens a placeholder for
the whole path or query. -/
theorem segments_cons {c : Nat} {rest : Text} (h : ¬StartsReference (c :: rest)) :
    segments (c :: rest) = .literal c :: segments rest := by
  cases hfound : placeholder? (c :: rest) with
  | none => exact segments_of_pieces_eq_cons (pieces_cons hfound)
  | some found =>
    obtain ⟨part, name?, left⟩ := found
    obtain ⟨source, hshape, heq⟩ := placeholder?_eq_some_iff.mp hfound
    have hpart : name? = none ∧ part ≠ .body := by
      by_contra hnot
      exact h ⟨part, name?, source, left, hshape, by tauto, heq⟩
    obtain ⟨rfl, hpart⟩ := hpart
    have hsegments : segmentsOf (.placeholder part none source) = source.map .literal := by
      cases part with
      | body => exact absurd rfl hpart
      | path | query => rfl
    rw [heq, segments_append hshape, hsegments]
    -- behind the first code point, nothing of the placeholder opens another one
    obtain ⟨d, tail, rfl, htail⟩ := hshape.exists_eq_cons_cons_cons
    obtain ⟨rfl, rfl⟩ := List.cons.inj heq
    have hsecond : placeholder? (openBrace :: (d :: tail ++ left)) = none :=
      placeholder?_eq_none fun left' heq ↦
        htail (List.mem_cons.mpr (.inl (List.cons.inj (List.cons.inj heq).2).1.symm))
    have hrest := segments_of_pieces_eq_cons (pieces_cons hsecond)
    rw [segments_append_of_notMem htail] at hrest
    rw [List.map_cons, List.cons_append]
    exact congrArg _ hrest.symm

theorem isCut_append_of_notMem {t rest : Text} {parts : List Segment} (h : openBrace ∉ t)
    (hrest : IsCut rest parts) : IsCut (t ++ rest) (t.map .literal ++ parts) := by
  induction t with
  | nil => exact hrest
  | cons c t ih =>
    rw [List.mem_cons, not_or] at h
    exact .literal (not_startsReference_of_ne (Ne.symm h.1) _) (ih h.2)

theorem isCut_whole {part : BoundName} {source left : Text} {parts : List Segment}
    (h : IsPlaceholder part none source) (hpart : part ≠ .body) (hleft : IsCut left parts) :
    IsCut (source ++ left) (source.map .literal ++ parts) := by
  have hfirst := not_startsReference_of_isPlaceholder h hpart left
  obtain ⟨d, tail, rfl, htail⟩ := h.exists_eq_cons_cons_cons
  have hd : d ≠ openBrace := fun hd ↦ htail (List.mem_cons.mpr (.inl hd.symm))
  exact .literal hfirst (.literal (not_startsReference_of_second_ne hd _)
    (isCut_append_of_notMem htail hleft))

theorem isCut_segments (template : Text) : IsCut template (segments template) := by
  -- the scan goes from one placeholder to the next, of which some are no references
  induction template using scan_induction with
  | nil => exact .nil
  | verbatim c rest hnone ih =>
    have hstarts : ¬StartsReference (c :: rest) := by
      rintro ⟨part, name?, source, left, hshape, -, heq⟩
      rw [placeholder?_eq_some_iff.mpr ⟨source, hshape, heq⟩] at hnone
      cases hnone
    rw [segments_of_pieces_eq_cons (pieces_cons hnone)]
    exact .literal hstarts ih
  | placeholder part name? source left hshape ih =>
    rw [segments_append hshape]
    cases name? with
    | some name => exact .reference hshape ih
    | none =>
      cases part with
      | body => exact .wholeBody hshape ih
      | path => exact isCut_whole hshape (by decide) ih
      | query => exact isCut_whole hshape (by decide) ih

/-- **Templates are cut in one way.** -/
theorem isCut_iff {t : Text} {parts : List Segment} : IsCut t parts ↔ parts = segments t := by
  constructor
  · intro h
    induction h with
    | nil => rfl
    | literal hnone _ ih => rw [segments_cons hnone, ih]
    | reference hshape _ ih => rw [segments_append hshape, ih]; rfl
    | wholeBody hshape _ ih => rw [segments_append hshape, ih]; rfl
  · rintro rfl
    exact isCut_segments t

/-- The sources of the segments make up the template. -/
theorem source_segments (template : Text) :
    (segments template).flatMap Segment.source = template := by
  have hpiece (piece : Piece) : (segmentsOf piece).flatMap Segment.source = piece.source := by
    cases piece with
    | whole part source =>
      have hliterals : (source.map Segment.literal).flatMap Segment.source = source := by
        simp [List.flatMap_map, Segment.source]
      cases part with
      | body => simp [segmentsOf, Segment.source, Piece.source]
      | path | query => exact hliterals
    | verbatim | entry => simp [segmentsOf, Segment.source, Piece.source]
  rw [segments, List.flatMap_assoc]
  simp only [hpiece, source_pieces]

/-- The references are those that the names of the template are listed from. -/
theorem mem_namesOf_iff_reference_mem {part : BoundName} {name template : Text} :
    name ∈ namesOf part template ↔ ∃ source, .reference part name source ∈ segments template := by
  have hpiece (source : Text) (piece : Piece) :
      .reference part name source ∈ segmentsOf piece ↔ piece = .entry part name source := by
    cases piece with
    | whole other _ => cases other <;> simp [segmentsOf]
    | verbatim | entry => simp [segmentsOf, eq_comm]
  rw [mem_namesOf_iff]
  refine exists_congr fun source ↦ ?_
  simp [segments, List.mem_flatMap, hpiece]

/-! ## Filling in -/

section

variable {context : RequestContext} {parts parts' : List Segment}

/-- The text that takes the place of several segments. -/
def fillAll [Stack] (context : RequestContext) (parts : List Segment) : Except Failure Text := do
  return (← parts.mapM (Segment.fill context)).flatten

theorem fillAll_append : fillAll context (parts ++ parts') = fillAll context parts >>= fun t ↦
    fillAll context parts' >>= fun u ↦ .ok (t ++ u) := by
  unfold fillAll
  rw [List.mapM_append]
  cases parts.mapM (Segment.fill context) with
  | error failure => rfl
  | ok ts =>
    cases parts'.mapM (Segment.fill context) with
    | error failure => rfl
    | ok us => exact congrArg Except.ok List.flatten_append

theorem fillAll_literals (t : Text) : fillAll context (t.map .literal) = .ok t := by
  have hmap : (t.map Segment.literal).mapM (Segment.fill context) = .ok (t.map fun c ↦ [c]) :=
    mapM_eq_ok_iff.mpr (by simp [List.forall₂_map_left_iff, List.forall₂_map_right_iff,
      List.forall₂_same, Segment.fill, Segment.value?, Segment.source])
  have hflatten : (t.map fun c ↦ [c]).flatten = t := by
    rw [← List.flatMap_def, List.flatMap_singleton']
  rw [fillAll, hmap, ok_bind, hflatten]
  rfl

/-- A piece is replaced segment by segment. -/
theorem renderPiece_eq_fillAll (piece : Piece) :
    renderPiece context context.body.isTruthy piece = fillAll context (segmentsOf piece) := by
  have hsingleton (segment : Segment) : fillAll context [segment] = segment.fill context := by
    rw [fillAll, List.mapM_cons, List.mapM_nil]
    cases segment.fill context with
    | error failure => rfl
    | ok t => exact congrArg Except.ok (List.append_nil t)
  cases piece with
  | verbatim c => exact (fillAll_literals [c]).symm
  | entry part name source =>
    rw [segmentsOf, hsingleton, renderPiece, Segment.fill.eq_def, Segment.value?]
    cases (entriesOf (context.get part)).get? name with
    | none => rfl
    | some value => rfl
  | whole part source =>
    cases part with
    | path => exact (fillAll_literals source).symm
    | query => exact (fillAll_literals source).symm
    | body =>
      rw [segmentsOf, hsingleton, renderPiece, Segment.fill.eq_def, Segment.value?]
      cases context.body.isTruthy with
      | false => rfl
      | true => rfl

theorem fillIn_eq_fillAll (template : Text) :
    fillIn context template = fillAll context (segments template) := by
  have hcons {t rest : Text} {piece : Piece} (hpieces : pieces t = piece :: pieces rest)
      (ih : fillIn context rest = fillAll context (segments rest)) :
      fillIn context t = fillAll context (segments t) := by
    rw [fillIn_of_pieces_eq_cons hpieces, segments_of_pieces_eq_cons hpieces, fillAll_append,
      renderPiece_eq_fillAll, ih]
  induction template using scan_induction with
  | nil => rfl
  | verbatim c rest hnone ih => exact hcons (pieces_cons hnone) ih
  | placeholder part name? source left hshape ih => exact hcons (pieces_append hshape left) ih

/-- A segment fails only if the value in its place cannot be written. -/
theorem exists_fill_eq_ok_iff {segment : Segment} : (∃ t, segment.fill context = .ok t) ↔
    ∀ value ∈ segment.value? context, value.Writable := by
  cases hvalue : segment.value? context with
  | none => simp [Segment.fill, hvalue]
  | some value =>
    cases segment with
    | literal c => cases hvalue
    | reference part name source =>
      simp [Segment.fill, hvalue, Value.exists_toReplacement_eq_ok_iff]
    | wholeBody source => simp [Segment.fill, hvalue, Value.exists_toJson_eq_ok_iff]

end

theorem fillAll_congr {context context' : RequestContext} {parts : List Segment}
    (h : ∀ segment ∈ parts, segment.fill context = segment.fill context') :
    fillAll context parts = fillAll context' parts := by
  have hmap : parts.mapM (Segment.fill context) = parts.mapM (Segment.fill context') := by
    induction parts with
    | nil => rfl
    | cons segment parts ih =>
      obtain ⟨hsegment, hparts⟩ := List.forall_mem_cons.mp h
      rw [List.mapM_cons, List.mapM_cons, hsegment, ih hparts]
  rw [fillAll, fillAll, hmap]

theorem renderSinglePass_eq_fillAll {context : RequestContext} (h : context.body.isHuge = false)
    (template : Text) : renderSinglePass template context = fillAll context (segments template) :=
  (renderSinglePass_eq_fillIn h template).trans (fillIn_eq_fillAll template)

/-- Requests with the same body and the same values under the names of a template fill it in
alike. -/
theorem renderSinglePass_congr {template : Text} {context context' : RequestContext}
    (hbody : context.body = context'.body)
    (hnames : ∀ part, ∀ name ∈ namesOf part template,
      (entriesOf (context.get part)).get? name = (entriesOf (context'.get part)).get? name) :
    renderSinglePass template context = renderSinglePass template context' := by
  cases hhuge : context.body.isHuge with
  | true =>
    have hhuge' : context'.body.isHuge = true := hbody ▸ hhuge
    rw [renderSinglePass, renderSinglePass, Value.truthy_eq, Value.truthy_eq, hhuge, hhuge']
    rfl
  | false =>
    have hhuge' : context'.body.isHuge = false := hbody ▸ hhuge
    rw [renderSinglePass_eq_fillAll hhuge, renderSinglePass_eq_fillAll hhuge']
    refine fillAll_congr fun segment hsegment ↦ ?_
    have hvalue : segment.value? context = segment.value? context' := by
      cases segment with
      | literal c => rfl
      | reference part name source =>
        exact hnames part name (mem_namesOf_iff_reference_mem.mpr ⟨source, hsegment⟩)
      | wholeBody source => rw [Segment.value?, Segment.value?, hbody]
    rw [Segment.fill.eq_def, Segment.fill.eq_def, hvalue]

/-- **What a single pass makes of a template.** There is one way to cut the template into literals
and references, where each reference is taken at the first place where one starts. The sources of
the segments make up the template, and the references are those that the names of the template are
listed from. For every request, filling in succeeds if and only if the body can be tested for truth
and the values that take the place of segments can be written. The result has the literals as they
stand and for each reference its formatted value, or its source if there is no value, one after
another. So requests with the same body that agree on the listed names give the same. -/
theorem exists_segments (template : Text) : ∃ parts : List Segment,
    (∀ parts', IsCut template parts' ↔ parts' = parts) ∧
    parts.flatMap Segment.source = template ∧
    (∀ part name, name ∈ namesOf part template ↔ ∃ source, .reference part name source ∈ parts) ∧
    (∀ context, (∃ text, render .singlePass template context = .ok text) ↔
      context.body.isHuge = false ∧
        ∀ segment ∈ parts, ∀ value ∈ segment.value? context, value.Writable) ∧
    (∀ context text, render .singlePass template context = .ok text →
      ∃ texts, List.Forall₂ (fun segment t ↦ Segment.fill context segment = .ok t) parts texts ∧
        text = texts.flatten) ∧
    (∀ context context', context.body = context'.body →
      (∀ part, ∀ name ∈ namesOf part template, (entriesOf (context.get part)).get? name
        = (entriesOf (context'.get part)).get? name) →
      render .singlePass template context = render .singlePass template context') := by
  have hsuccess (context : RequestContext) :
      (∃ text, renderSinglePass template context = .ok text) ↔ context.body.isHuge = false ∧
        ∀ segment ∈ segments template, ∀ value ∈ segment.value? context, value.Writable := by
    cases hhuge : context.body.isHuge with
    | true =>
      rw [renderSinglePass, Value.truthy_eq, hhuge]
      simp
    | false =>
      rw [renderSinglePass_eq_fillAll hhuge]
      simp only [fillAll, pure_eq_ok, exists_bind_ok_eq_ok_iff, exists_mapM_eq_ok_iff,
        exists_fill_eq_ok_iff, true_and]
  refine ⟨segments template, fun parts' ↦ isCut_iff, source_segments template,
    fun part name ↦ mem_namesOf_iff_reference_mem, hsuccess, fun context text h ↦ ?_,
    fun context context' ↦ renderSinglePass_congr⟩
  have hhuge := ((hsuccess context).mp ⟨text, h⟩).1
  have hfilled : fillAll context (segments template) = .ok text :=
    (renderSinglePass_eq_fillAll hhuge template).symm.trans h
  obtain ⟨texts, htexts, htext⟩ := bind_eq_ok_iff.mp hfilled
  exact ⟨texts, mapM_eq_ok_iff.mp htexts, (Except.ok.inj htext).symm⟩

/-- A body that cannot be tested for truth stands in the way of a template without references. -/
theorem render_body_limit :
    letI : Stack := .usual
    render .singlePass "x" ⟨.ofEntries [], .ofEntries [], .int Double.limit⟩
      = .error .integerTooLarge := by
  have hhuge : (Value.int Double.limit).isHuge = true :=
    Value.isHuge_int.mpr (Int.natAbs_natCast Double.limit).ge
  unfold render renderSinglePass
  dsimp only
  rw [Value.truthy_eq, hhuge]
  rfl

end Template

end MockApi
