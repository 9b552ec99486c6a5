import Mathlib.Data.List.Induction
import Mathlib.Data.List.TakeWhile
import MockApi.Proofs.Endpoint.Selection
import MockApi.Proofs.Number.Numeral
import MockApi.Template.Render

/-!
# Where placeholders stand

A placeholder is a text with a shape of its own, and whether a text starts with one is settled by
that placeholder alone: what comes after its closing braces plays no part. So a template is cut into
pieces from the front, one code point or one placeholder at a time, and filled in the same way.
-/

namespace MockApi

variable {stack : Stack}

/-- The piece that a placeholder is cut into. -/
def Piece.placeholder (part : BoundName) (name? : Option Text) (source : Text) : Piece :=
  match name? with
  | some name => .entry part name source
  | none => .whole part source

namespace Template

/-! ## The shape of placeholders -/

/-- The text is a placeholder for a part of the request, or for an entry of that part. -/
inductive IsPlaceholder (part : BoundName) : Option Text → Text → Prop
  | whole {before after : Text} (hbefore : ∀ c ∈ before, Text.isBlank c = true)
      (hafter : ∀ c ∈ after, Text.isBlank c = true) :
      IsPlaceholder part none (openBrace :: openBrace ::
        (before ++ (part.spelling ++ (after ++ [closeBrace, closeBrace]))))
  | entry {before inside : Text} (hbefore : ∀ c ∈ before, Text.isBlank c = true)
      (hinside : ∀ c ∈ inside, isBrace c = false) :
      IsPlaceholder part (some (Text.trim inside)) (openBrace :: openBrace ::
        (before ++ (part.spelling ++ ('.'.toNat :: (inside ++ [closeBrace, closeBrace])))))

theorem afterOpening?_eq_some_iff {t rest : Text} :
    afterOpening? t = some rest ↔ t = openBrace :: openBrace :: rest := by
  constructor
  · intro h
    unfold afterOpening? at h
    split at h
    · obtain ⟨⟨rfl, rfl⟩, h⟩ := Option.ite_none_right_eq_some.mp h
      rw [Option.some.inj h]
    · cases h
  · rintro rfl
    rfl

theorem afterClosing?_eq_some_iff {t rest : Text} :
    afterClosing? t = some rest ↔ t = closeBrace :: closeBrace :: rest := by
  constructor
  · intro h
    unfold afterClosing? at h
    split at h
    · obtain ⟨⟨rfl, rfl⟩, h⟩ := Option.ite_none_right_eq_some.mp h
      rw [Option.some.inj h]
    · cases h
  · rintro rfl
    rfl

/-- No bound name starts another one, so the name in front of a text is told from the text. -/
theorem boundName?_eq_some_iff {t rest : Text} {part : BoundName} :
    boundName? t = some (part, rest) ↔ t = part.spelling ++ rest := by
  constructor
  · intro h
    obtain ⟨name, -, hname⟩ := List.exists_of_findSome?_eq_some h
    obtain ⟨left, hleft, heq⟩ := Option.map_eq_some_iff.mp hname
    cases heq
    exact Text.eq_append_of_isPrefixOf? hleft
  · rintro rfl
    cases part <;> rfl

theorem exists_eq_append_dropWhile_isBlank (t : Text) :
    ∃ blanks, (∀ c ∈ blanks, Text.isBlank c = true) ∧ t = blanks ++ t.dropWhile Text.isBlank :=
  ⟨t.takeWhile Text.isBlank, fun _ hc ↦ List.mem_takeWhile_imp hc,
    List.takeWhile_append_dropWhile.symm⟩

section Reading

variable {part : BoundName} {before after inside : Text}

/-- A placeholder is read up to its bound name. -/
theorem placeholder?_spelling (hbefore : ∀ c ∈ before, Text.isBlank c = true) (c : Nat)
    (tail : Text) :
    placeholder? (openBrace :: openBrace :: (before ++ (part.spelling ++ c :: tail)))
      = if c = '.'.toNat then
          (afterClosing? (tail.dropWhile fun c ↦ !isBrace c)).map fun left ↦
            (part, some (Text.trim (tail.takeWhile fun c ↦ !isBrace c)), left)
        else (afterClosing? ((c :: tail).dropWhile Text.isBlank)).map fun left ↦
          (part, none, left) := by
  have hspelling : ∀ d ∈ (part.spelling ++ c :: tail).head?, Text.isBlank d = false := by
    cases part <;> exact fun d hd ↦ Option.some.inj hd ▸ by decide
  rw [placeholder?, afterOpening?_eq_some_iff.mpr rfl]
  simp only [bind, Option.bind]
  rw [Text.dropWhile_append_of_stop hbefore hspelling, boundName?_eq_some_iff.mpr rfl]
  dsimp only
  split
  · cases afterClosing? (tail.dropWhile fun c ↦ !isBrace c) <;> rfl
  · cases afterClosing? ((c :: tail).dropWhile Text.isBlank) <;> rfl

theorem placeholder?_whole (hbefore : ∀ c ∈ before, Text.isBlank c = true)
    (hafter : ∀ c ∈ after, Text.isBlank c = true) (left : Text) :
    placeholder? (openBrace :: openBrace ::
        (before ++ (part.spelling ++ (after ++ closeBrace :: closeBrace :: left))))
      = some (part, none, left) := by
  have hstop : ∀ c ∈ (closeBrace :: closeBrace :: left).head?, Text.isBlank c = false :=
    fun c hc ↦ Option.some.inj hc ▸ by decide
  cases after with
  | nil => exact placeholder?_spelling hbefore _ _
  | cons c after =>
    have hc : c ≠ '.'.toNat := by
      rintro rfl
      exact absurd (hafter _ List.mem_cons_self) (by decide)
    have hdrop := Text.dropWhile_append_of_stop hafter hstop
    rw [List.cons_append] at hdrop ⊢
    rw [placeholder?_spelling hbefore, if_neg hc, hdrop, afterClosing?_eq_some_iff.mpr rfl]
    rfl

theorem placeholder?_entry (hbefore : ∀ c ∈ before, Text.isBlank c = true)
    (hinside : ∀ c ∈ inside, isBrace c = false) (left : Text) :
    placeholder? (openBrace :: openBrace ::
        (before ++ (part.spelling ++ '.'.toNat :: (inside ++ closeBrace :: closeBrace :: left))))
      = some (part, some (Text.trim inside), left) := by
  have hstop : ∀ c ∈ (closeBrace :: closeBrace :: left).head?, (!isBrace c) = false :=
    fun c hc ↦ Option.some.inj hc ▸ by decide
  have hspan : ∀ c ∈ inside, (!isBrace c) = true := fun c hc ↦ by rw [hinside c hc]; rfl
  rw [placeholder?_spelling hbefore, if_pos rfl, Text.dropWhile_append_of_stop hspan hstop,
    Text.takeWhile_append_of_stop hspan hstop, afterClosing?_eq_some_iff.mpr rfl]
  rfl

end Reading

/-- **What starts with a placeholder.** A text starts with a placeholder if and only if it is one
with the rest of the text behind it. -/
theorem placeholder?_eq_some_iff {t left : Text} {part : BoundName} {name? : Option Text} :
    placeholder? t = some (part, name?, left) ↔ ∃ source, IsPlaceholder part name? source ∧
      t = source ++ left := by
  constructor
  · intro h
    simp only [placeholder?, bind, Option.bind_eq_some_iff] at h
    obtain ⟨rest, hopen, ⟨part', tail⟩, hpart, h⟩ := h
    obtain ⟨before, hbefore, hrest⟩ := exists_eq_append_dropWhile_isBlank rest
    rw [boundName?_eq_some_iff.mp hpart] at hrest
    rw [afterOpening?_eq_some_iff.mp hopen, hrest]
    cases tail with
    | nil => cases h
    | cons c inside =>
      dsimp only at h
      split at h
      · -- behind a point, the name goes up to the first brace
        rename_i hc
        obtain ⟨left', hclosing, h⟩ := Option.bind_eq_some_iff.mp h
        cases h
        have hspan : ∀ c ∈ inside.takeWhile (fun c ↦ !isBrace c), isBrace c = false := by
          intro c hc
          simpa using List.mem_takeWhile_imp hc
        have hinside : inside = inside.takeWhile (fun c ↦ !isBrace c)
            ++ (closeBrace :: closeBrace :: left) := by
          rw [← afterClosing?_eq_some_iff.mp hclosing, List.takeWhile_append_dropWhile]
        refine ⟨_, .entry hbefore hspan, ?_⟩
        conv_lhs => rw [hc, hinside]
        simp
      · obtain ⟨left', hclosing, h⟩ := Option.bind_eq_some_iff.mp h
        cases h
        obtain ⟨after, hafter, htail⟩ := exists_eq_append_dropWhile_isBlank (c :: inside)
        rw [afterClosing?_eq_some_iff.mp hclosing] at htail
        refine ⟨_, .whole hbefore hafter, ?_⟩
        rw [htail]
        simp
  · rintro ⟨source, hshape, rfl⟩
    cases hshape with
    | whole hbefore hafter =>
      rw [← placeholder?_whole hbefore hafter left]
      simp
    | entry hbefore hinside =>
      rw [← placeholder?_entry hbefore hinside left]
      simp

/-- Every placeholder opens with two braces and holds no other opening brace. -/
theorem IsPlaceholder.exists_eq_cons_cons {part : BoundName} {name? : Option Text} {source : Text}
    (h : IsPlaceholder part name? source) :
    ∃ tail, source = openBrace :: openBrace :: tail ∧ openBrace ∉ tail := by
  have hblank {c : Nat} (hc : Text.isBlank c = true) : c ≠ openBrace := by
    rintro rfl
    exact absurd hc (by decide)
  have hspelling : openBrace ∉ part.spelling := by cases part <;> decide
  cases h with
  | whole hbefore hafter =>
    refine ⟨_, rfl, ?_⟩
    simp only [List.mem_append, not_or]
    exact ⟨fun hmem ↦ hblank (hbefore _ hmem) rfl, hspelling, fun hmem ↦ hblank (hafter _ hmem) rfl,
      by decide⟩
  | entry hbefore hinside =>
    refine ⟨_, rfl, ?_⟩
    simp only [List.mem_append, List.mem_cons, not_or]
    exact ⟨fun hmem ↦ hblank (hbefore _ hmem) rfl, hspelling, by decide,
      fun hmem ↦ absurd (hinside _ hmem) (by decide), by decide⟩

theorem IsPlaceholder.exists_eq_cons_cons_cons {part : BoundName} {name? : Option Text}
    {source : Text} (h : IsPlaceholder part name? source) :
    ∃ c tail, source = openBrace :: openBrace :: c :: tail ∧ openBrace ∉ c :: tail := by
  have hclose : closeBrace ∈ source := by cases h <;> simp
  obtain ⟨tail, rfl, htail⟩ := h.exists_eq_cons_cons
  cases tail with
  | nil => exact absurd hclose (by decide)
  | cons c tail => exact ⟨c, tail, rfl, htail⟩

theorem IsPlaceholder.notMem_of_append {part : BoundName} {name? : Option Text} {c d : Nat}
    {t u : Text} (h : IsPlaceholder part name? (c :: t ++ d :: u)) : openBrace ∉ u := by
  obtain ⟨tail, heq, htail⟩ := h.exists_eq_cons_cons
  have hbehind : t ++ d :: u = openBrace :: tail := (List.cons.inj heq).2
  refine fun hmem ↦ htail ?_
  cases t with
  | nil =>
    obtain ⟨-, rfl⟩ := List.cons.inj hbehind
    exact hmem
  | cons e t =>
    obtain ⟨-, rfl⟩ := List.cons.inj hbehind
    exact List.mem_append_right t (List.mem_cons_of_mem d hmem)

/-- Only the name of an entry brings a quotation mark into a placeholder. -/
theorem IsPlaceholder.exists_mem_name {part : BoundName} {name? : Option Text} {source : Text}
    (h : IsPlaceholder part name? source) (hmark : Text.quotationMark ∈ source) :
    ∃ name, name? = some name ∧ Text.quotationMark ∈ name := by
  have hblank : ¬Text.isBlank Text.quotationMark = true := by decide
  have hspelling : Text.quotationMark ∉ part.spelling := by cases part <;> decide
  have hbrace : Text.quotationMark ≠ openBrace ∧ Text.quotationMark ≠ closeBrace := by decide
  cases h with
  | whole hbefore hafter =>
    simp only [List.mem_cons, List.mem_append, List.not_mem_nil, hbrace.1, hbrace.2, hspelling,
      false_or, or_false] at hmark
    rcases hmark with hmem | hmem
    · exact absurd (hbefore _ hmem) hblank
    · exact absurd (hafter _ hmem) hblank
  | @entry before inside hbefore hinside =>
    have hpoint : Text.quotationMark ≠ '.'.toNat := by decide
    simp only [List.mem_cons, List.mem_append, List.not_mem_nil, hbrace.1, hbrace.2, hspelling,
      hpoint, false_or, or_false] at hmark
    rcases hmark with hmem | hmem
    · exact absurd (hbefore _ hmem) hblank
    · exact ⟨_, rfl, Text.mem_trimWhile hmem (by decide)⟩

/-- No placeholder starts a text that does not open with two braces. -/
theorem placeholder?_eq_none {t : Text} (h : ∀ rest, t ≠ openBrace :: openBrace :: rest) :
    placeholder? t = none := by
  rw [Option.eq_none_iff_forall_ne_some]
  rintro ⟨part, name?, left⟩ hfound
  obtain ⟨source, hshape, rfl⟩ := placeholder?_eq_some_iff.mp hfound
  obtain ⟨tail, rfl, -⟩ := hshape.exists_eq_cons_cons
  exact h _ rfl

/-- A placeholder that starts a text only together with what stands behind it goes over the first
code point of that. -/
theorem exists_isPlaceholder_of_append {t rest left : Text} {d : Nat} {part : BoundName}
    {name? : Option Text} (hfound : placeholder? (t ++ d :: rest) = some (part, name?, left))
    (hnone : placeholder? t = none) :
    ∃ inside, IsPlaceholder part name? (t ++ d :: inside) ∧ rest = inside ++ left := by
  obtain ⟨source, hshape, heq⟩ := placeholder?_eq_some_iff.mp hfound
  have hlong (tail : Text) : t ≠ source ++ tail := by
    intro heq
    rw [placeholder?_eq_some_iff.mpr ⟨source, hshape, heq⟩] at hnone
    cases hnone
  rcases List.append_eq_append_iff.mp heq with ⟨behind, rfl, hrest⟩ | ⟨tail, ht, -⟩
  · cases behind with
    | nil => exact absurd (by simp) (hlong [])
    | cons d inside =>
      obtain ⟨rfl, htail⟩ := List.cons.inj hrest
      exact ⟨inside, hshape, htail⟩
  · exact absurd ht (hlong tail)

/-- **Induction along the scan.** A template is empty, or it starts with a code point that starts no
placeholder, or with a placeholder. -/
@[elab_as_elim]
theorem scan_induction {motive : Text → Prop} (nil : motive [])
    (verbatim : ∀ c rest, placeholder? (c :: rest) = none → motive rest → motive (c :: rest))
    (placeholder : ∀ part name? source left, IsPlaceholder part name? source → motive left →
      motive (source ++ left)) (template : Text) : motive template := by
  induction hlength : template.length using Nat.strongRecOn generalizing template with
  | ind n ih =>
    cases template with
    | nil => exact nil
    | cons c rest =>
      rw [List.length_cons] at hlength
      cases hfound : placeholder? (c :: rest) with
      | none => exact verbatim c rest hfound (ih rest.length (by omega) rest rfl)
      | some found =>
        obtain ⟨part, name?, left⟩ := found
        obtain ⟨source, hshape, heq⟩ := placeholder?_eq_some_iff.mp hfound
        obtain ⟨tail, hsource, -⟩ := hshape.exists_eq_cons_cons
        have hleft := congrArg List.length heq
        rw [hsource] at hleft
        simp only [List.length_cons, List.length_append] at hleft
        rw [heq]
        exact placeholder part name? source left hshape (ih left.length (by omega) left rfl)

/-! ## Cutting into pieces -/

/-- As many steps as there are code points are enough. -/
theorem piecesWithin_eq_pieces {steps : Nat} {t : Text} (h : t.length ≤ steps) :
    piecesWithin steps t = pieces t := by
  suffices hall : ∀ steps steps' t, t.length ≤ steps → t.length ≤ steps' →
      piecesWithin steps t = piecesWithin steps' t from hall _ _ _ h (Nat.le_refl _)
  intro steps
  induction steps with
  | zero =>
    intro steps' t ht _
    obtain rfl := List.length_eq_zero_iff.mp (Nat.le_zero.mp ht)
    cases steps' <;> rfl
  | succ steps ih =>
    intro steps' t ht ht'
    cases t with
    | nil => cases steps' <;> rfl
    | cons c rest =>
      obtain ⟨steps', rfl⟩ : ∃ k, steps' = k + 1 := ⟨steps' - 1, by simp at ht'; omega⟩
      simp only [List.length_cons, Nat.add_le_add_iff_right] at ht ht'
      unfold piecesWithin
      cases hfound : placeholder? (c :: rest) with
      | none => simp only [ih steps' rest ht ht']
      | some found =>
        obtain ⟨part, name?, left⟩ := found
        obtain ⟨source, hshape, heq⟩ := placeholder?_eq_some_iff.mp hfound
        obtain ⟨tail, rfl, -⟩ := hshape.exists_eq_cons_cons
        -- a placeholder takes more than one code point off
        have hleft : left.length ≤ rest.length := by
          have hlength := congrArg List.length heq
          simp at hlength
          omega
        simp only [ih steps' left (by omega) (by omega)]

theorem pieces_cons {c : Nat} {rest : Text} (h : placeholder? (c :: rest) = none) :
    pieces (c :: rest) = .verbatim c :: pieces rest := by
  rw [pieces, List.length_cons, piecesWithin, h]
  rfl

theorem pieces_append {part : BoundName} {name? : Option Text} {source : Text}
    (h : IsPlaceholder part name? source) (left : Text) :
    pieces (source ++ left) = .placeholder part name? source :: pieces left := by
  have hfound : placeholder? (source ++ left) = some (part, name?, left) :=
    placeholder?_eq_some_iff.mpr ⟨source, h, rfl⟩
  have htake : (source ++ left).take ((source ++ left).length - left.length) = source := by simp
  obtain ⟨tail, rfl, -⟩ := h.exists_eq_cons_cons
  have hsteps : left.length ≤ (openBrace :: (tail ++ left)).length := by
    simp only [List.length_cons, List.length_append]
    omega
  rw [List.cons_append, List.cons_append] at hfound htake ⊢
  rw [pieces, List.length_cons, piecesWithin, hfound]
  dsimp only
  rw [htake, piecesWithin_eq_pieces hsteps]
  cases name? <;> rfl

/-- The names that a template is listed with are those of its pieces. -/
theorem mem_namesOf_iff {part : BoundName} {template name : Text} :
    name ∈ namesOf part template ↔ ∃ source, Piece.entry part name source ∈ pieces template := by
  unfold namesOf
  induction pieces template using List.reverseRecOn with
  | nil => simp
  | append_singleton pieces piece ih =>
    rw [List.foldl_append, List.foldl_cons, List.foldl_nil]
    cases piece with
    | verbatim c => exact ih.trans (by simp)
    | whole p source => exact ih.trans (by simp)
    | entry p other source =>
      -- a name that is not added is in the list, or belongs to another part
      simp only [List.mem_append, List.mem_singleton, Piece.entry.injEq, List.contains_eq_mem,
        Bool.not_eq_true', decide_eq_false_iff_not] at ih ⊢
      grind

/-! ## Filling in -/

/-- The template filled in from a request whose body can be tested for truth. -/
def fillIn [Stack] (context : RequestContext) (template : Text) : Except Failure Text := do
  return (← (pieces template).mapM (renderPiece context context.body.isTruthy)).flatten

theorem renderSinglePass_eq_fillIn {context : RequestContext} (h : context.body.isHuge = false)
    (template : Text) : renderSinglePass template context = fillIn context template := by
  rw [renderSinglePass, Value.truthy_eq, h]
  rfl

variable {context : RequestContext}

theorem fillIn_of_pieces_eq_cons {t rest : Text} {piece : Piece}
    (h : pieces t = piece :: pieces rest) :
    fillIn context t = renderPiece context context.body.isTruthy piece >>= fun t ↦
      fillIn context rest >>= fun u ↦ .ok (t ++ u) := by
  rw [fillIn, fillIn, h, List.mapM_cons]
  cases renderPiece context context.body.isTruthy piece with
  | error failure => rfl
  | ok t =>
    cases (pieces rest).mapM (renderPiece context context.body.isTruthy) with
    | error failure => rfl
    | ok ts => rfl

/-- A code point that starts no placeholder stays. -/
theorem fillIn_cons {c : Nat} {rest : Text} (h : placeholder? (c :: rest) = none) :
    fillIn context (c :: rest) = fillIn context rest >>= fun u ↦ .ok (c :: u) :=
  fillIn_of_pieces_eq_cons (pieces_cons h)

/-- A placeholder is replaced, and the text after it is filled in. -/
theorem fillIn_append {part : BoundName} {name? : Option Text} {source : Text}
    (h : IsPlaceholder part name? source) (left : Text) : fillIn context (source ++ left)
      = renderPiece context context.body.isTruthy (.placeholder part name? source) >>= fun t ↦
        fillIn context left >>= fun u ↦ .ok (t ++ u) :=
  fillIn_of_pieces_eq_cons (pieces_append h left)

end Template

end MockApi
