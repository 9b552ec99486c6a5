import MockApi.Proofs.Json.RoundTrip
import MockApi.Proofs.Template.Scanning
import MockApi.Route.Dispatch

/-!
# Filling in documents part by part

A template that is a JSON document is filled in part by part: a part that ends outside of all
placeholders comes out the same whatever stands behind it. Brackets, commas, keys and texts without
an opening brace stay as they are. Objects do have an opening brace, but what stands behind it is
the quotation mark of a key or the closing brace.
-/

namespace MockApi

variable {stack : Stack}

/-! ## Escapes hold no opening brace -/

namespace Json

theorem notMem_escape {c : Nat} (h : c ≠ Template.openBrace) :
    Template.openBrace ∉ escape false c := by
  unfold escape
  split
  · rename_i letter hletter
    have hne : letter ≠ Template.openBrace := by
      unfold shortEscape? at hletter
      split at hletter
      · exact Option.some.inj hletter ▸ h
      · repeat' split at hletter
        all_goals
          cases hletter <;> decide
    simpa [hne.symm] using (by decide : Template.openBrace ≠ Text.backslash)
  · by_cases hcontrol : c < 0x20
    · rw [if_pos hcontrol]
      have hall : ∀ c < 0x20, Template.openBrace ∉ unitEscape c := by decide +kernel
      exact hall c hcontrol
    · rw [if_neg hcontrol]
      simpa using h.symm

theorem notMem_writeText {t : Text} (h : Template.openBrace ∉ t) :
    Template.openBrace ∉ writeText false t := by
  have hescapes : Template.openBrace ∉ t.flatMap (escape false) := by
    rw [List.mem_flatMap]
    rintro ⟨c, hc, hmem⟩
    refine notMem_escape ?_ hmem
    rintro rfl
    exact h hc
  rw [writeText, List.cons_append, List.mem_cons, List.mem_append, List.mem_singleton]
  rintro (hmem | hmem | hmem)
  · exact absurd hmem (by decide)
  · exact hescapes hmem
  · exact absurd hmem (by decide)

theorem notMem_writeKey {key : Text} (h : Template.openBrace ∉ key) :
    Template.openBrace ∉ writeKey .compact key := by
  rw [writeKey_compact, List.mem_append, not_or]
  exact ⟨notMem_writeText h, by decide⟩

/-- Apart from texts, only objects have an opening brace in their documents. -/
theorem notMem_compactText {key : Text → Prop} {value : Value}
    (h : value.IsPlain key (Template.openBrace ∉ ·)) (hscalar : value.isContainer = false) :
    Template.openBrace ∉ compactText value := by
  cases h with
  | null => decide
  | bool b => cases b <;> decide
  | int hn =>
    intro hmem
    rcases Text.eq_or_isAsciiDigit_of_mem_ofInt hmem with hc | hc <;> exact absurd hc (by decide)
  | text ht => exact notMem_writeText ht
  | list | object => cases hscalar

end Json

namespace Template

variable {context : RequestContext} {p q : Prop} {t t' u u' : Text}

/-- The text `t` is filled in as `t'`, whatever stands behind it, provided that `p` holds, and there
is a value nested too deep if it does not. -/
def Becomes [Stack] (context : RequestContext) (t : Text) (p : Prop) (t' : Text) : Prop :=
  ∀ rest, fillIn context (t ++ rest) = okIf p .nestingTooDeep t' >>= fun t' ↦
    fillIn context rest >>= fun u ↦ .ok (t' ++ u)

theorem Becomes.fillIn_eq (h : Becomes context t p t') :
    fillIn context t = okIf p .nestingTooDeep t' := by
  have hall := h []
  rw [List.append_nil] at hall
  rw [hall]
  by_cases hp : p
  · rw [okIf_of hp]
    simp [fillIn, pieces, piecesWithin]
  · rw [okIf_of_not hp, error_bind]

theorem Becomes.of_iff (h : Becomes context t p t') (hiff : p ↔ q) : Becomes context t q t' :=
  propext hiff ▸ h

theorem Becomes.append (h : Becomes context t p t') (h' : Becomes context u q u') :
    Becomes context (t ++ u) (p ∧ q) (t' ++ u') := by
  intro rest
  rw [List.append_assoc, h, h']
  by_cases hp : p
  · by_cases hq : q
    · rw [okIf_of hp, okIf_of hq, okIf_of ⟨hp, hq⟩]
      cases fillIn context rest <;> simp
    · rw [okIf_of hp, okIf_of_not hq, okIf_of_not (p := p ∧ q) fun hand ↦ hq hand.2]
      rfl
  · rw [okIf_of_not hp, okIf_of_not (p := p ∧ q) fun hand ↦ hp hand.1]
    rfl

/-- A text without an opening brace stays. -/
theorem becomes_self (h : openBrace ∉ t) : Becomes context t True t := by
  intro rest
  rw [okIf_of trivial, ok_bind]
  induction t with
  | nil => cases hrest : fillIn context rest <;> simp [hrest]
  | cons c t ih =>
    rw [List.mem_cons, not_or] at h
    have hnone : placeholder? (c :: (t ++ rest)) = none :=
      placeholder?_eq_none fun left heq ↦ h.1 (List.cons.inj heq).1.symm
    rw [List.cons_append, fillIn_cons hnone, ih h.2]
    cases fillIn context rest <;> rfl

theorem Becomes.verbatim_append (h : Becomes context u p u') (ht : openBrace ∉ t) :
    Becomes context (t ++ u) p (t ++ u') :=
  ((becomes_self ht).append h).of_iff (by rw [true_and])

theorem Becomes.append_verbatim (h : Becomes context t p t') (hu : openBrace ∉ u) :
    Becomes context (t ++ u) p (t' ++ u) :=
  (h.append (becomes_self hu)).of_iff (by rw [and_true])

/-- An opening brace with something else behind it stays. -/
theorem Becomes.brace {c : Nat} (hc : c ≠ openBrace) (h : Becomes context (c :: t) p t') :
    Becomes context (openBrace :: c :: t) p (openBrace :: t') := by
  intro rest
  have hnone : placeholder? (openBrace :: (c :: t ++ rest)) = none :=
    placeholder?_eq_none fun left heq ↦ hc (List.cons.inj (List.cons.inj heq).2).1
  rw [List.cons_append, fillIn_cons hnone, h]
  by_cases hp : p
  · rw [okIf_of hp, okIf_of hp]
    cases fillIn context rest <;> rfl
  · rw [okIf_of_not hp, okIf_of_not hp]
    rfl

/-- A placeholder is replaced. -/
theorem becomes_of_isPlaceholder {part : BoundName} {name? : Option Text}
    (h : IsPlaceholder part name? t)
    (hpiece : renderPiece context context.body.isTruthy (.placeholder part name? t)
      = okIf p .nestingTooDeep t') : Becomes context t p t' := by
  intro rest
  rw [fillIn_append h, hpiece]

/-! ## Lists and objects -/

section Containers

variable {α : Type} {f g : α → Text} {condition : α → Prop} {xs : List α}

theorem becomes_join {sep : Text} (hsep : openBrace ∉ sep)
    (h : ∀ x ∈ xs, Becomes context (f x) (condition x) (g x)) :
    Becomes context (Text.join sep (xs.map f)) (∀ x ∈ xs, condition x)
      (Text.join sep (xs.map g)) := by
  induction xs with
  | nil => exact (becomes_self List.not_mem_nil).of_iff (by simp)
  | cons x xs ih =>
    obtain ⟨hx, hxs⟩ := List.forall_mem_cons.mp h
    cases xs with
    | nil => exact hx.of_iff List.forall_mem_singleton.symm
    | cons y ys =>
      refine ((hx.append_verbatim hsep).append (ih hxs)).of_iff ?_
      rw [List.forall_mem_cons (a := x)]

/-- The items of a list are filled in one by one. -/
theorem becomes_list (h : ∀ x ∈ xs, Becomes context (f x) (condition x) (g x)) :
    Becomes context ('['.toNat :: (Text.join [','.toNat] (xs.map f) ++ [']'.toNat]))
      (∀ x ∈ xs, condition x)
      ('['.toNat :: (Text.join [','.toNat] (xs.map g) ++ [']'.toNat])) := by
  have hsep : openBrace ∉ [','.toNat] := by decide
  have hopening : openBrace ∉ ['['.toNat] := by decide
  have hclosing : openBrace ∉ [']'.toNat] := by decide
  exact ((becomes_join hsep h).append_verbatim hclosing).verbatim_append hopening

/-- The entries of an object are filled in one by one, apart from their keys. -/
theorem becomes_object {key : α → Text} (hkeys : ∀ x ∈ xs, openBrace ∉ key x)
    (h : ∀ x ∈ xs, Becomes context (f x) (condition x) (g x)) :
    Becomes context
      (0x7B :: (Text.join [','.toNat] (xs.map fun x ↦ Json.writeKey .compact (key x) ++ f x)
        ++ [0x7D]))
      (∀ x ∈ xs, condition x)
      (0x7B :: (Text.join [','.toNat] (xs.map fun x ↦ Json.writeKey .compact (key x) ++ g x)
        ++ [0x7D])) := by
  have hentries : ∀ x ∈ xs, Becomes context (Json.writeKey .compact (key x) ++ f x) (condition x)
      (Json.writeKey .compact (key x) ++ g x) :=
    fun x hx ↦ (h x hx).verbatim_append (Json.notMem_writeKey (hkeys x hx))
  have hsep : openBrace ∉ [','.toNat] := by decide
  have hclosing : openBrace ∉ [0x7D] := by decide
  have hinside := (becomes_join hsep hentries).append_verbatim hclosing
  -- behind the brace stands the mark of the first key or the closing brace
  cases xs with
  | nil => exact hinside.brace (by decide)
  | cons x xs =>
    obtain ⟨tail, htail⟩ := Text.exists_join_cons_eq_append [','.toNat]
      (Json.writeKey .compact (key x) ++ f x)
      (xs.map fun x ↦ Json.writeKey .compact (key x) ++ f x)
    rw [List.map_cons, htail] at hinside ⊢
    exact hinside.brace (by decide)

end Containers

/-! ## The response -/

/-- The text of a plain value is filled in from a template: then the body of the response is that
value, unless filling in or reading takes too many levels. -/
theorem Becomes.body_eq {key text : Text → Prop} {value : Value} {status delay : Nat}
    (h : Becomes context t p (Json.compactText value)) (htruth : context.body.isHuge = false)
    (hplain : value.IsPlain key text) :
    Dispatch.body .singlePass ⟨status, delay, t⟩ context
      = okIf (p ∧ value.NestedWithin Stack.reading) .nestingTooDeep (.ok value) := by
  have hrender : render .singlePass t context
      = okIf p .nestingTooDeep (Json.compactText value) := by
    rw [render, renderSinglePass_eq_fillIn htruth, h.fillIn_eq]
  rw [Dispatch.body]
  dsimp only
  rw [hrender]
  -- deep nesting shows while a value is filled in, or else when the text is read
  by_cases hcondition : p
  · rw [okIf_of hcondition, ok_bind, Json.read_compactText hplain]
    by_cases hnested : value.NestedWithin Stack.reading
    · rw [okIf_of hnested, okIf_of ⟨hcondition, hnested⟩]
      rfl
    · rw [okIf_of_not hnested, okIf_of_not fun hboth ↦ hnested hboth.2]
      rfl
  · rw [okIf_of_not hcondition, okIf_of_not fun hboth ↦ hcondition hboth.1, error_bind]

end Template

end MockApi
