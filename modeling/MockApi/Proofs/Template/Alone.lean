import MockApi.Proofs.Template.Modes

/-!
# A placeholder by itself

A template that is one placeholder and nothing else becomes the text of the value that takes its
place, in either mode. In a single pass that is plain. In sequence, the edits for the other entries
of the request are made as well, before and after the one that counts: those before find nothing to
replace, whatever the names of the entries are, since a placeholder without white space inside can
be spelled in one way only, and those after find nothing as long as the text brings no placeholder
along.
-/

namespace MockApi.Template

variable {stack : Stack}

namespace Reference

/-- A reference between double braces, without white space. -/
def spelled (reference : Reference) : Text :=
  openBrace :: openBrace :: (reference.inside ++ [closeBrace, closeBrace])

/-- The placeholder for a reference, as a piece. -/
def piece (reference : Reference) : Piece :=
  .placeholder reference.part reference.name? reference.spelled

variable {reference other : Reference}

theorem spells_spelled (reference : Reference) : reference.Spells reference.spelled :=
  .intro (List.forall_mem_nil _) (List.forall_mem_nil _)

theorem pieces_spelled (h : reference.IsPlain) : pieces reference.spelled = [reference.piece] := by
  have hpieces := pieces_append ((spells_spelled reference).isPlaceholder h) []
  rwa [List.append_nil] at hpieces

/-- Names of parts are told from what stands behind them. -/
theorem eq_of_spelling_append {part part' : BoundName} {t u : Text}
    (h : part.spelling ++ t = part'.spelling ++ u) : part = part' ∧ t = u := by
  have hpart : boundName? (part.spelling ++ t) = some (part, t) := boundName?_eq_some_iff.mpr rfl
  rw [boundName?_eq_some_iff.mpr h] at hpart
  cases hpart
  exact ⟨rfl, rfl⟩

/-- A plain name does not end in white space. -/
theorem eq_nil_of_isPlainName_append {name gap : Text} (h : IsPlainName (name ++ gap))
    (hgap : ∀ c ∈ gap, Text.isBlank c = true) : gap = [] := by
  obtain ⟨front, back, heq, -, -⟩ := Text.exists_eq_append_trimWhile Text.isBlank name
  have htrim : Text.trimWhile Text.isBlank name = name ++ gap :=
    (Text.trimWhile_append hgap).symm.trans h.2
  rw [htrim] at heq
  have hlength := congrArg List.length heq
  simp only [List.length_append] at hlength
  exact List.length_eq_zero_iff.mp (by omega)

/-- What stands in front of the closing braces is told from them if it has no braces. -/
theorem eq_of_append_closing {name inside left : Text} (hname : ∀ c ∈ name, isBrace c = false)
    (h : name ++ [closeBrace, closeBrace] = inside ++ (closeBrace :: closeBrace :: left)) :
    name = inside := by
  rcases List.append_eq_append_iff.mp h with ⟨behind, hinside, hclosing⟩ | ⟨behind, rfl, hclosing⟩
  · have hlength := congrArg List.length hclosing
    simp only [List.length_append, List.length_cons] at hlength
    have hnil : behind = [] := List.length_eq_zero_iff.mp (by simp at hlength; omega)
    rw [hinside, hnil, List.append_nil]
  · cases behind with
    | nil => exact List.append_nil inside
    | cons c behind =>
      obtain ⟨rfl, -⟩ := List.cons.inj hclosing
      exact absurd (hname closeBrace (by simp)) (by decide)

/-- **A placeholder without white space is spelled in one way.** Only the replacement for its own
reference finds one at its start. -/
theorem eq_of_spells {source left : Text} (hplain : reference.IsPlain) (h : other.Spells source)
    (heq : reference.spelled = source ++ left) : other = reference := by
  obtain @⟨before, after, hbefore, hafter⟩ := h
  have hinside : reference.inside ++ [closeBrace, closeBrace]
      = before ++ (other.inside ++ (after ++ (closeBrace :: closeBrace :: left))) := by
    simpa [spelled] using heq
  have hnil : before = [] := by
    cases before with
    | nil => rfl
    | cons c before =>
      have hhead : c ∈ (reference.inside ++ [closeBrace, closeBrace]).head? := by
        rw [hinside]
        rfl
      have hblank := hbefore c List.mem_cons_self
      rw [isBlank_of_mem_head?_inside hhead] at hblank
      cases hblank
  rw [hnil, List.nil_append, inside, inside, List.append_assoc, List.append_assoc] at hinside
  obtain ⟨hpart, hsuffix⟩ := eq_of_spelling_append hinside
  cases reference with
  | whole part =>
    cases other with
    | whole part' => exact congrArg whole hpart.symm
    | entry part' name' => exact absurd (List.cons.inj hsuffix).1 (by decide)
  | entry part name =>
    cases other with
    | whole part' =>
      cases after with
      | nil => exact absurd (List.cons.inj hsuffix).1 (by decide)
      | cons c after =>
        obtain ⟨rfl, -⟩ := List.cons.inj hsuffix
        exact absurd (hafter _ List.mem_cons_self) (by decide)
    | entry part' name' =>
      have hname : IsPlainName name := hplain name rfl
      have hspelled : name ++ [closeBrace, closeBrace]
          = (name' ++ after) ++ (closeBrace :: closeBrace :: left) := by
        simpa using (List.cons.inj hsuffix).2
      obtain rfl := eq_of_append_closing hname.1 hspelled
      obtain rfl := eq_nil_of_isPlainName_append hname hafter
      rw [List.append_nil]
      exact congrArg (entry · name') hpart.symm

end Reference

/-! ## Edits of a placeholder by itself -/

section Edits

variable {reference : Reference} {replacement : Text}

/-- Nothing is replaced in a text without two opening braces side by side. -/
theorem replace_eq_self {t : Text} (h : ¬[openBrace, openBrace] <:+: t) :
    replace reference.inside replacement t = t := by
  induction t with
  | nil => rfl
  | cons c t ih =>
    have hnone : afterExactly? reference.inside (c :: t) = none := by
      refine afterExactly?_eq_none fun rest heq ↦ h ?_
      rw [heq]
      exact ⟨[], rest, rfl⟩
    rw [replace_cons hnone, ih fun hpart ↦ h (hpart.trans (List.suffix_cons c t).isInfix)]

theorem editAll_eq_self {edits : List Edit} {t : Text} (h : ¬[openBrace, openBrace] <:+: t) :
    editAll edits t = t := by
  induction edits with
  | nil => rfl
  | cons edit edits ih =>
    change editAll edits (replace edit.1.inside edit.2 t) = t
    rw [replace_eq_self h, ih]

theorem replace_spelled (reference : Reference) (replacement : Text) :
    replace reference.inside replacement reference.spelled = replacement := by
  have hreplace : replace reference.inside replacement (reference.spelled ++ []) =
      replacement ++ replace reference.inside replacement [] :=
    replace_of_spells reference.spells_spelled []
  rw [List.append_nil] at hreplace
  rw [hreplace]
  exact List.append_nil replacement

theorem replace_spelled_of_ne {other : Reference} (hplain : reference.IsPlain)
    (hne : other ≠ reference) :
    replace other.inside replacement reference.spelled = reference.spelled := by
  have hnone : afterExactly? other.inside reference.spelled = none := by
    rw [Option.eq_none_iff_forall_ne_some]
    intro left hfound
    obtain ⟨source, hspells, heq⟩ := Reference.afterExactly?_eq_some_iff.mp hfound
    exact hne (Reference.eq_of_spells hplain hspells heq)
  obtain ⟨c, tail, heq, htail⟩ :=
    (reference.spells_spelled.isPlaceholder hplain).exists_eq_cons_cons_cons
  rw [heq] at hnone ⊢
  have hsecond : afterExactly? other.inside (openBrace :: c :: tail) = none :=
    afterExactly?_eq_none fun rest heq ↦
      htail (List.mem_cons.mpr (.inl (List.cons.inj (List.cons.inj heq).2).1.symm))
  have hbehind : replace other.inside replacement (c :: tail ++ []) =
      c :: tail ++ replace other.inside replacement [] := replace_of_notMem htail []
  rw [List.append_nil] at hbehind
  rw [replace_cons hnone, replace_cons hsecond, hbehind]
  exact congrArg (fun t ↦ openBrace :: openBrace :: t) (List.append_nil (c :: tail))

/-- Of the edits for a placeholder by itself, the first one for its reference counts. -/
theorem editAll_spelled {edits : List Edit} {t : Text} (hplain : reference.IsPlain)
    (h : edits.lookup reference = some t) (ht : ¬[openBrace, openBrace] <:+: t) :
    editAll edits reference.spelled = t := by
  induction edits with
  | nil => cases h
  | cons edit edits ih =>
    change editAll edits (replace edit.1.inside edit.2 reference.spelled) = t
    rw [List.lookup_cons] at h
    by_cases hsame : reference = edit.1
    · rw [beq_iff_eq.mpr hsame] at h
      rw [← hsame, replace_spelled, Option.some.inj h, editAll_eq_self ht]
    · rw [beq_eq_false_iff_ne.mpr hsame] at h
      rw [replace_spelled_of_ne hplain (Ne.symm hsame), ih h]

end Edits

/-- What takes the place of a placeholder is written. -/
theorem mem_written_spelled {reference : Reference} {context : RequestContext} {value : Value}
    {mode : RenderMode} (hplain : reference.IsPlain)
    (hvalue : replacement? context reference.piece = some value) :
    value ∈ written mode reference.spelled context := by
  cases mode with
  | singlePass =>
    refine List.mem_filterMap.mpr ⟨reference.piece, ?_, hvalue⟩
    rw [Reference.pieces_spelled hplain]
    exact List.mem_singleton_self reference.piece
  | sequential => exact mem_written_of_replacement? hvalue

/-- **A placeholder by itself** becomes the text of the value that takes its place, in either mode,
unless in sequence that text brings two opening braces along. -/
theorem render_spelled {reference : Reference} {context : RequestContext} {value : Value}
    (mode : RenderMode) (hplain : reference.IsPlain)
    (hvalue : replacement? context reference.piece = some value)
    (htext : mode = .sequential →
      ¬[openBrace, openBrace] <:+: replacementText reference.piece value)
    (hbody : context.body.isHuge = false)
    (hwritable : ∀ v ∈ written mode reference.spelled context, v.Writable) :
    render mode reference.spelled context = .ok (replacementText reference.piece value) := by
  cases mode with
  | singlePass =>
    have hpiece : renderPiece context context.body.isTruthy reference.piece
        = .ok (replacementText reference.piece value) := by
      rw [renderPiece_eq, hvalue]
      · rfl
      · exact fun v hv ↦ hwritable v (mem_written_spelled hplain hv)
    rw [render, renderSinglePass_eq_fillIn hbody, fillIn, Reference.pieces_spelled hplain,
      List.mapM_cons, hpiece]
    simp
  | sequential =>
    have hlookup : (editsFor context).lookup reference
        = some (replacementText reference.piece value) := by
      rw [lookup_editsFor (reference?_placeholder reference reference.spelled)]
      exact congrArg _ hvalue
    rw [render, renderSequential_eq_editAll hbody hwritable,
      editAll_spelled hplain hlookup (htext rfl)]

end MockApi.Template
