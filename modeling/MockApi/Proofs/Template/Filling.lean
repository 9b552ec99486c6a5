import MockApi.Proofs.Endpoint.Selection
import MockApi.Proofs.Value.Writing
import MockApi.Template.Render

/-!
# Which templates can be filled in

Filling in fails for one of two reasons: the body cannot be tested for truth, or one of the values
that are written cannot be. The two modes differ in what they write. A single pass writes the values
that the placeholders of the template name; in sequence all entries of the request are written,
whether the template mentions them or not.
-/

namespace MockApi.Template

variable {stack : Stack}

/-! ## What is written -/

/-- The value that a piece is replaced by, if it is. -/
def replacement? (context : RequestContext) : Piece → Option Value
  | .verbatim _ => none
  | .whole .body _ => if context.body.isTruthy then some context.body else none
  | .whole _ _ => none
  | .entry part name _ => (entriesOf (context.get part)).get? name

/-- The values of the entries of a part of a request. -/
def entryValues (value : Value) : List Value := (entriesOf value).map Prod.snd

/-- The values that the body has written in sequence. -/
def bodyValues (body : Value) : List Value :=
  if body.isTruthy then entryValues body ++ [body] else []

/-- The values that are written when a template is filled in. -/
def written (mode : RenderMode) (template : Text) (context : RequestContext) : List Value :=
  match mode with
  | .singlePass => (pieces template).filterMap (replacement? context)
  | .sequential => entryValues context.path ++ entryValues context.query ++ bodyValues context.body

/-! ## In a single pass -/

theorem exists_renderPiece_eq_ok_iff {context : RequestContext} {piece : Piece} :
    (∃ t, renderPiece context context.body.isTruthy piece = .ok t) ↔
      ∀ value ∈ replacement? context piece, value.Writable := by
  cases piece with
  | verbatim c => simp [renderPiece, replacement?]
  | whole part source =>
    cases part with
    | body =>
      by_cases htruthy : context.body.isTruthy = true
      · simp [renderPiece, replacement?, htruthy, Value.exists_toJson_eq_ok_iff]
      · simp [renderPiece, replacement?, htruthy]
    | path | query => simp [renderPiece, replacement?]
  | entry part name source =>
    cases hvalue : (entriesOf (context.get part)).get? name with
    | none => simp [renderPiece, replacement?, hvalue]
    | some value =>
      simp [renderPiece, replacement?, hvalue, Value.exists_toReplacement_eq_ok_iff]

theorem exists_renderSinglePass_eq_ok_iff {template : Text} {context : RequestContext} :
    (∃ t, renderSinglePass template context = .ok t) ↔
      context.body.isHuge = false ∧
        ∀ value ∈ written .singlePass template context, value.Writable := by
  unfold renderSinglePass
  rw [Value.truthy_eq]
  cases context.body.isHuge with
  | true => simp
  | false =>
    simp only [Bool.false_eq_true, if_false, ok_bind, pure_eq_ok, exists_bind_ok_eq_ok_iff,
      exists_mapM_eq_ok_iff, exists_renderPiece_eq_ok_iff, true_and]
    constructor
    · intro h value hvalue
      obtain ⟨piece, hpiece, hreplacement⟩ := List.mem_filterMap.mp hvalue
      exact h piece hpiece value hreplacement
    · intro h piece hpiece value hreplacement
      exact h value (List.mem_filterMap.mpr ⟨piece, hpiece, hreplacement⟩)

/-! ## In sequence -/

theorem replaceEntries_cons (part : BoundName) (key : Text) (value : Value) (entries : Entries)
    (t : Text) : replaceEntries part ((key, value) :: entries) t =
      value.toReplacement >>= fun text ↦
        replaceEntries part entries (replace (part.spelling ++ '.'.toNat :: key) text t) := by
  unfold replaceEntries
  rw [List.foldlM_cons]
  dsimp only
  cases value.toReplacement with
  | error failure => rfl
  | ok text => rfl

/-- Every entry is written, and in whichever text the replacement takes place does not matter. -/
theorem exists_replaceEntries_eq_ok_iff {part : BoundName} {entries : Entries} {t : Text} :
    (∃ t', replaceEntries part entries t = .ok t') ↔
      ∀ value ∈ entries.map Prod.snd, value.Writable := by
  induction entries generalizing t with
  | nil => simp [replaceEntries]
  | cons entry entries ih =>
    obtain ⟨key, value⟩ := entry
    rw [replaceEntries_cons, exists_bind_eq_ok_iff fun text ↦ ih, List.map_cons,
      List.forall_mem_cons, Value.exists_toReplacement_eq_ok_iff]

/-- The text with the entries of the body and then the body replaced, if the body counts as true. -/
def replaceBody [Stack] (context : RequestContext) (t : Text) : Except Failure Text := do
  if ← context.body.truthy then
    let t ← replaceEntries .body (entriesOf context.body) t
    return replace BoundName.body.spelling (← context.body.toJson) t
  else return t

theorem exists_replaceBody_eq_ok_iff {context : RequestContext} {t : Text} :
    (∃ t', replaceBody context t = .ok t') ↔ context.body.isHuge = false ∧
      ∀ value ∈ bodyValues context.body, value.Writable := by
  unfold replaceBody bodyValues
  rw [Value.truthy_eq]
  cases context.body.isHuge with
  | true => simp
  | false =>
    cases context.body.isTruthy with
    | false => simp
    | true =>
      simp only [Bool.false_eq_true, if_false, if_true, ok_bind, pure_eq_ok, true_and,
        entryValues, List.forall_mem_append, List.forall_mem_singleton]
      rw [exists_bind_eq_ok_iff fun t ↦ exists_bind_ok_eq_ok_iff, exists_replaceEntries_eq_ok_iff,
        Value.exists_toJson_eq_ok_iff]

theorem renderSequential_eq (template : Text) (context : RequestContext) :
    renderSequential template context =
      replaceEntries .path (entriesOf context.path) template >>= fun t ↦
        replaceEntries .query (entriesOf context.query) t >>= replaceBody context := rfl

theorem exists_renderSequential_eq_ok_iff {template : Text} {context : RequestContext} :
    (∃ t, renderSequential template context = .ok t) ↔
      context.body.isHuge = false ∧
        ∀ value ∈ written .sequential template context, value.Writable := by
  -- whether a stage succeeds does not depend on the text that the one before has left
  have hquery (t : Text) :
      (∃ t', replaceEntries .query (entriesOf context.query) t >>= replaceBody context = .ok t') ↔
        (∀ value ∈ entryValues context.query, value.Writable) ∧ context.body.isHuge = false ∧
          ∀ value ∈ bodyValues context.body, value.Writable := by
    rw [exists_bind_eq_ok_iff fun t ↦ exists_replaceBody_eq_ok_iff, exists_replaceEntries_eq_ok_iff,
      entryValues]
  rw [renderSequential_eq, exists_bind_eq_ok_iff hquery, exists_replaceEntries_eq_ok_iff]
  simp only [written, entryValues, List.forall_mem_append]
  tauto

/-- **Which templates can be filled in.** Those of which all values that are written can be, if the
body can be tested for truth. -/
theorem exists_render_eq_ok_iff {mode : RenderMode} {template : Text} {context : RequestContext} :
    (∃ t, render mode template context = .ok t) ↔
      context.body.isHuge = false ∧ ∀ value ∈ written mode template context, value.Writable := by
  cases mode with
  | singlePass => exact exists_renderSinglePass_eq_ok_iff
  | sequential => exact exists_renderSequential_eq_ok_iff

end MockApi.Template
