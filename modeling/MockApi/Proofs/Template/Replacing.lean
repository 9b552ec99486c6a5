import MockApi.Proofs.Template.Filling
import MockApi.Proofs.Template.Scanning

/-!
# One replacement in a text

In sequence, one replacement after another goes over the whole text. Each of them looks for the
placeholders that have exactly one reference between their braces, white space around it apart. As
long as the reference names no entry with braces in its name, what it looks for is a placeholder
like any other, so the replacement goes piece by piece: it replaces some of the pieces of the text
and leaves the others alone.
-/

namespace MockApi

namespace Template

/-! ## References -/

/-- What a placeholder refers to. -/
inductive Reference
  /-- A part of the request. -/
  | whole (part : BoundName)
  /-- An entry of a part of the request. -/
  | entry (part : BoundName) (name : Text)
deriving DecidableEq

/-- A name that can stand in a placeholder as it is: without braces, and without white space at its
ends. -/
def IsPlainName (name : Text) : Prop := (∀ c ∈ name, isBrace c = false) ∧ Text.trim name = name

instance (name : Text) : Decidable (IsPlainName name) := inferInstanceAs (Decidable (_ ∧ _))

namespace Reference

/-- The part of the request that a reference is about. -/
def part : Reference → BoundName
  | whole part | entry part _ => part

/-- The name of the entry, if there is one. -/
def name? : Reference → Option Text
  | whole _ => none
  | entry _ name => some name

/-- What stands behind the name of the part. -/
def suffix : Reference → Text
  | whole _ => []
  | entry _ name => '.'.toNat :: name

/-- A reference as it is written between braces. -/
def inside (reference : Reference) : Text := reference.part.spelling ++ reference.suffix

/-- A reference whose name can stand in a placeholder as it is. -/
def IsPlain (reference : Reference) : Prop := ∀ name ∈ reference.name?, IsPlainName name

/-- The text is a placeholder with exactly the reference between its braces, white space around it
apart. -/
inductive Spells (reference : Reference) : Text → Prop
  | intro {before after : Text} (hbefore : ∀ c ∈ before, Text.isBlank c = true)
      (hafter : ∀ c ∈ after, Text.isBlank c = true) :
      Spells reference (openBrace :: openBrace ::
        (before ++ (reference.inside ++ (after ++ [closeBrace, closeBrace]))))

/-- Whether a piece is a placeholder with exactly the reference between its braces. -/
def isSpelledBy (reference : Reference) (piece : Piece) : Bool :=
  afterExactly? reference.inside piece.source = some []

variable {reference : Reference}

theorem isBlank_of_mem_head?_inside {c : Nat} {rest : Text}
    (h : c ∈ (reference.inside ++ rest).head?) : Text.isBlank c = false := by
  have hhead : ∀ part : BoundName, ∀ t : Text, ∀ c ∈ (part.spelling ++ t).head?,
      Text.isBlank c = false := by
    intro part t c hc
    cases part <;> exact Option.some.inj hc ▸ by decide
  rw [inside, List.append_assoc] at h
  exact hhead _ _ c h

/-- **What a replacement looks for.** A text starts with it if and only if it starts with a
placeholder that spells the reference. -/
theorem afterExactly?_eq_some_iff {t left : Text} :
    afterExactly? reference.inside t = some left ↔
      ∃ source, reference.Spells source ∧ t = source ++ left := by
  constructor
  · intro h
    simp only [afterExactly?, bind, Option.bind_eq_some_iff] at h
    obtain ⟨rest, hopen, tail, hinside, hclosing⟩ := h
    obtain ⟨before, hbefore, hrest⟩ := exists_eq_append_dropWhile_isBlank rest
    obtain ⟨after, hafter, htail⟩ := exists_eq_append_dropWhile_isBlank tail
    rw [Text.eq_append_of_isPrefixOf? hinside] at hrest
    rw [afterClosing?_eq_some_iff.mp hclosing] at htail
    refine ⟨_, .intro hbefore hafter, ?_⟩
    rw [afterOpening?_eq_some_iff.mp hopen, hrest, htail]
    simp
  · rintro ⟨_, ⟨hbefore, hafter⟩, rfl⟩
    rename_i before after
    have hstop : ∀ c ∈ (closeBrace :: closeBrace :: left).head?, Text.isBlank c = false :=
      fun c hc ↦ Option.some.inj hc ▸ by decide
    simp only [List.cons_append, List.append_assoc, List.nil_append]
    rw [afterExactly?, MockApi.Template.afterOpening?_eq_some_iff.mpr rfl]
    simp only [bind, Option.bind]
    rw [Text.dropWhile_append_of_stop hbefore fun c ↦ isBlank_of_mem_head?_inside,
      Text.isPrefixOf?_append]
    dsimp only
    rw [Text.dropWhile_append_of_stop hafter hstop, afterClosing?_eq_some_iff.mpr rfl]

theorem isSpelledBy_iff {piece : Piece} :
    reference.isSpelledBy piece = true ↔ reference.Spells piece.source := by
  simp [isSpelledBy, afterExactly?_eq_some_iff]

/-- A placeholder that spells a plain reference is cut into a piece for that reference. -/
theorem Spells.isPlaceholder {source : Text} (h : reference.Spells source)
    (hplain : reference.IsPlain) : IsPlaceholder reference.part reference.name? source := by
  obtain @⟨before, after, hbefore, hafter⟩ := h
  cases reference with
  | whole part =>
    rw [inside, suffix, List.append_nil]
    exact .whole hbefore hafter
  | entry part name =>
    obtain ⟨hbraces, htrim⟩ := hplain name rfl
    have hall : ∀ c ∈ name ++ after, isBrace c = false := by
      intro c hc
      rcases List.mem_append.mp hc with hc | hc
      · exact hbraces c hc
      · by_contra hbrace
        have hblank := hafter c hc
        rw [Bool.not_eq_false, isBrace, Bool.or_eq_true, decide_eq_true_eq, decide_eq_true_eq]
          at hbrace
        rcases hbrace with rfl | rfl <;> exact absurd hblank (by decide)
    have hname : Text.trim (name ++ after) = name :=
      (Text.trimWhile_append hafter).trans htrim
    have hentry : IsPlaceholder part _ _ := .entry hbefore hall
    rw [hname, List.append_assoc] at hentry
    rw [inside, suffix, List.append_assoc, List.cons_append]
    exact hentry

end Reference

/-! ## One replacement -/

section Replace

variable {reference : Reference} {replacement : Text}

theorem afterExactly?_length_lt {t left : Text} (h : afterExactly? reference.inside t = some left) :
    left.length < t.length := by
  obtain ⟨_, ⟨_, _⟩, rfl⟩ := Reference.afterExactly?_eq_some_iff.mp h
  simp
  omega

theorem afterExactly?_eq_none {t : Text} (h : ∀ rest, t ≠ openBrace :: openBrace :: rest) :
    afterExactly? reference.inside t = none := by
  rw [Option.eq_none_iff_forall_ne_some]
  intro left hfound
  obtain ⟨_, ⟨_, _⟩, rfl⟩ := Reference.afterExactly?_eq_some_iff.mp hfound
  exact h _ rfl

/-- As many steps as there are code points are enough. -/
theorem replaceWithin_eq_replace {steps : Nat} {t : Text} (h : t.length ≤ steps) :
    replaceWithin reference.inside replacement steps t
      = replace reference.inside replacement t := by
  suffices hall : ∀ steps steps' t, t.length ≤ steps → t.length ≤ steps' →
      replaceWithin reference.inside replacement steps t
        = replaceWithin reference.inside replacement steps' t from hall _ _ _ h (Nat.le_refl _)
  intro steps
  induction steps with
  | zero =>
    intro steps' t ht _
    obtain rfl := List.length_eq_zero_iff.mp (Nat.le_zero.mp ht)
    cases steps' <;> rfl
  | succ steps ih =>
    intro steps' t ht ht'
    cases t with
    | nil => cases steps' <;> rfl
    | cons c rest =>
      obtain ⟨steps', rfl⟩ : ∃ k, steps' = k + 1 := ⟨steps' - 1, by simp at ht'; omega⟩
      simp only [List.length_cons, Nat.add_le_add_iff_right] at ht ht'
      unfold replaceWithin
      cases hfound : afterExactly? reference.inside (c :: rest) with
      | none => simp only [ih steps' rest ht ht']
      | some left =>
        have hleft := afterExactly?_length_lt hfound
        rw [List.length_cons] at hleft
        simp only [ih steps' left (by omega) (by omega)]

theorem replace_cons {c : Nat} {rest : Text}
    (h : afterExactly? reference.inside (c :: rest) = none) :
    replace reference.inside replacement (c :: rest)
      = c :: replace reference.inside replacement rest := by
  rw [replace, List.length_cons, replaceWithin, h]
  rfl

theorem replace_of_spells {source : Text} (h : reference.Spells source) (left : Text) :
    replace reference.inside replacement (source ++ left)
      = replacement ++ replace reference.inside replacement left := by
  have hfound : afterExactly? reference.inside (source ++ left) = some left :=
    Reference.afterExactly?_eq_some_iff.mpr ⟨source, h, rfl⟩
  have hlength := afterExactly?_length_lt hfound
  cases hsource : source ++ left with
  | nil => rw [hsource] at hlength; cases hlength
  | cons c rest =>
    rw [hsource] at hfound hlength
    rw [replace, List.length_cons, replaceWithin, hfound]
    dsimp only
    rw [replaceWithin_eq_replace (Nat.lt_succ_iff.mp hlength)]

theorem replace_of_notMem {t : Text} (h : openBrace ∉ t) (left : Text) :
    replace reference.inside replacement (t ++ left)
      = t ++ replace reference.inside replacement left := by
  induction t with
  | nil => rfl
  | cons c t ih =>
    rw [List.mem_cons, not_or] at h
    have hnone : afterExactly? reference.inside (c :: (t ++ left)) = none :=
      afterExactly?_eq_none fun rest heq ↦ h.1 (List.cons.inj heq).1.symm
    rw [List.cons_append, replace_cons hnone, ih h.2, List.cons_append]

/-- A placeholder of another reference is left alone. -/
theorem replace_of_not_spells {part : BoundName} {name? : Option Text} {source : Text}
    (hplain : reference.IsPlain) (h : IsPlaceholder part name? source)
    (hother : ¬reference.Spells source) (left : Text) :
    replace reference.inside replacement (source ++ left)
      = source ++ replace reference.inside replacement left := by
  have hnone : afterExactly? reference.inside (source ++ left) = none := by
    rw [Option.eq_none_iff_forall_ne_some]
    intro left' hfound
    obtain ⟨source', hspells, heq⟩ := Reference.afterExactly?_eq_some_iff.mp hfound
    -- both are the one placeholder that the text starts with
    have hhere : placeholder? (source ++ left) = some (part, name?, left) :=
      placeholder?_eq_some_iff.mpr ⟨source, h, rfl⟩
    rw [placeholder?_eq_some_iff.mpr ⟨source', hspells.isPlaceholder hplain, heq⟩] at hhere
    have hleft : left' = left := congrArg (fun found ↦ found.2.2) (Option.some.inj hhere)
    rw [hleft] at heq
    exact hother (List.append_cancel_right heq ▸ hspells)
  obtain ⟨c, tail, rfl, htail⟩ := h.exists_eq_cons_cons_cons
  have hsecond : afterExactly? reference.inside (openBrace :: (c :: tail ++ left)) = none :=
    afterExactly?_eq_none fun rest heq ↦
      htail (List.mem_cons.mpr (.inl (List.cons.inj (List.cons.inj heq).2).1.symm))
  rw [List.cons_append, List.cons_append] at hnone ⊢
  rw [replace_cons hnone, replace_cons hsecond, replace_of_notMem htail]
  rfl

/-- A piece with the placeholders for a reference replaced. -/
def putInto (reference : Reference) (replacement : Text) (piece : Piece) : Text :=
  if reference.isSpelledBy piece then replacement else piece.source

/-- **A replacement goes piece by piece.** -/
theorem replace_eq_flatMap_pieces (hplain : reference.IsPlain) (t : Text) :
    replace reference.inside replacement t
      = (pieces t).flatMap (putInto reference replacement) := by
  induction t using scan_induction with
  | nil => rfl
  | verbatim c rest hnone ih =>
    have hother : afterExactly? reference.inside (c :: rest) = none := by
      rw [Option.eq_none_iff_forall_ne_some]
      intro left hfound
      obtain ⟨source, hspells, heq⟩ := Reference.afterExactly?_eq_some_iff.mp hfound
      rw [placeholder?_eq_some_iff.mpr ⟨source, hspells.isPlaceholder hplain, heq⟩] at hnone
      cases hnone
    have hput : putInto reference replacement (.verbatim c) = [c] :=
      if_neg (by rw [Reference.isSpelledBy, afterExactly?_eq_none (by simp [Piece.source])]; simp)
    rw [replace_cons hother, pieces_cons hnone, List.flatMap_cons, hput, ih]
    rfl
  | placeholder part name? source left hshape ih =>
    have hsource : (Piece.placeholder part name? source).source = source := by cases name? <;> rfl
    rw [pieces_append hshape, List.flatMap_cons, ← ih, putInto]
    by_cases hspells : reference.Spells source
    · rw [replace_of_spells hspells, if_pos]
      rwa [Reference.isSpelledBy_iff, hsource]
    · rw [replace_of_not_spells hplain hshape hspells, hsource, if_neg]
      rwa [Reference.isSpelledBy_iff, hsource]

end Replace

end Template

end MockApi
