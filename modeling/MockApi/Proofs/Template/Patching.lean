import MockApi.Proofs.Template.Scanning

/-!
# Texts in place of pieces

A template is filled in by putting texts in the places of some of its pieces. Cut into pieces again,
the result need not be what one expects: a text may bring a placeholder along, or make one up
together with what stands around it. A patch is clean for some pieces if nothing of the kind
happens.

Cleanness is a property of the result alone: it holds as soon as the result has no more placeholders
than were left in place. From a clean patch one may take texts away again, since a placeholder that
is not left in place never reaches over one that is.
-/

namespace MockApi

/-- Whether a piece is a placeholder. -/
def Piece.isPlaceholder : Piece → Bool
  | verbatim _ => false
  | entry .. | whole .. => true

/-- Whether there may be an opening brace at an end of a piece or of what is put in its place. -/
def Piece.mayOpen : Piece → Bool
  | verbatim c => c = Template.openBrace
  | entry .. | whole .. => true

namespace Template

/-! ## Pieces that templates are cut into -/

/-- A piece with a source that is cut into just this piece. -/
inductive IsGenuine : Piece → Prop
  | verbatim (c : Nat) : IsGenuine (.verbatim c)
  | placeholder {part : BoundName} {name? : Option Text} {source : Text}
      (h : IsPlaceholder part name? source) : IsGenuine (.placeholder part name? source)

theorem isGenuine_of_mem_pieces {template : Text} : ∀ piece ∈ pieces template, IsGenuine piece := by
  induction template using scan_induction with
  | nil => exact List.forall_mem_nil _
  | verbatim c rest hnone ih =>
    rw [pieces_cons hnone]
    exact List.forall_mem_cons.mpr ⟨.verbatim c, ih⟩
  | placeholder part name? source left hshape ih =>
    rw [pieces_append hshape]
    exact List.forall_mem_cons.mpr ⟨.placeholder hshape, ih⟩

@[simp] theorem source_placeholder (part : BoundName) (name? : Option Text) (source : Text) :
    (Piece.placeholder part name? source).source = source := by
  cases name? <;> rfl

@[simp] theorem isPlaceholder_placeholder (part : BoundName) (name? : Option Text)
    (source : Text) : (Piece.placeholder part name? source).isPlaceholder = true := by
  cases name? <;> rfl

/-- No placeholder starts inside of a text with another one behind it. -/
def StartsNone (t rest : Text) : Prop :=
  ∀ c t', c :: t' <:+ t → placeholder? (c :: t' ++ rest) = none

theorem startsNone_nil (rest : Text) : StartsNone [] rest := by
  intro c t' h
  cases List.suffix_nil.mp h

theorem startsNone_cons {c : Nat} {t rest : Text} (hc : placeholder? (c :: t ++ rest) = none)
    (ht : StartsNone t rest) : StartsNone (c :: t) rest := by
  intro d t' h
  rcases List.suffix_cons_iff.mp h with heq | h
  · rw [heq]
    exact hc
  · exact ht d t' h

theorem StartsNone.of_cons {c : Nat} {t rest : Text} (h : StartsNone (c :: t) rest) :
    StartsNone t rest := fun d t' hsuffix ↦ h d t' (hsuffix.trans (List.suffix_cons c t))

theorem StartsNone.pieces_append {t rest : Text} (h : StartsNone t rest) :
    pieces (t ++ rest) = t.map .verbatim ++ pieces rest := by
  induction t with
  | nil => rfl
  | cons c t ih =>
    have hnone : placeholder? (c :: (t ++ rest)) = none := h c t List.suffix_rfl
    rw [List.cons_append, pieces_cons hnone, ih h.of_cons, List.map_cons, List.cons_append]

/-! ## Patches -/

/-- The texts that are put in the places of pieces; a piece without one is left in place, like all
that stand for themselves. -/
structure Patch where
  /-- The text in the place of a piece. -/
  text? : Piece → Option Text
  /-- Only placeholders are replaced. -/
  verbatim : ∀ c, text? (.verbatim c) = none

namespace Patch

variable (patch : Patch)

/-- What stands in the place of a piece. -/
def put (piece : Piece) : Text := (patch.text? piece).getD piece.source

/-- The text that the patch makes of some pieces. -/
def apply (pieces : List Piece) : Text := pieces.flatMap patch.put

/-- Whether a piece is a placeholder that is left in place. -/
def leaves (piece : Piece) : Bool := piece.isPlaceholder && (patch.text? piece).isNone

/-- What is left of a piece: itself, or the code points of the text in its place. -/
def remnant (piece : Piece) : List Piece :=
  match patch.text? piece with
  | some text => text.map .verbatim
  | none => [piece]

/-- No placeholder starts in what stands in the place of a piece, those left in place apart. -/
def IsClean : List Piece → Prop
  | [] => True
  | piece :: pieces =>
    (patch.leaves piece = false → StartsNone (patch.put piece) (patch.apply pieces))
      ∧ IsClean pieces

/-- What one patch puts in the place of a piece, so does the other. -/
def Within (other : Patch) : Prop :=
  ∀ piece text, patch.text? piece = some text → other.text? piece = some text

variable {patch} {other : Patch} {ps : List Piece}

@[simp] theorem apply_nil : patch.apply [] = [] := rfl

@[simp] theorem apply_cons (piece : Piece) (ps : List Piece) :
    patch.apply (piece :: ps) = patch.put piece ++ patch.apply ps := rfl

@[simp] theorem apply_append (ps qs : List Piece) :
    patch.apply (ps ++ qs) = patch.apply ps ++ patch.apply qs := List.flatMap_append

/-- A placeholder left in place starts with two opening braces. -/
theorem put_of_leaves {piece : Piece} (hgenuine : IsGenuine piece)
    (h : patch.leaves piece = true) :
    ∃ part name? source, IsPlaceholder part name? source ∧
      piece = .placeholder part name? source ∧ patch.put piece = source := by
  cases hgenuine with
  | verbatim c => cases h
  | placeholder hshape =>
    rw [leaves, isPlaceholder_placeholder, Bool.true_and, Option.isNone_iff_eq_none] at h
    exact ⟨_, _, _, hshape, rfl, by rw [put, h, Option.getD_none, source_placeholder]⟩

theorem remnant_of_leaves {piece : Piece} (h : patch.leaves piece = true) :
    patch.remnant piece = [piece] := by
  rw [leaves, Bool.and_eq_true, Option.isNone_iff_eq_none] at h
  rw [remnant, h.2]

theorem remnant_of_not_leaves {piece : Piece} (h : patch.leaves piece = false) :
    patch.remnant piece = (patch.put piece).map .verbatim := by
  unfold remnant put
  cases htext : patch.text? piece with
  | some text => rfl
  | none =>
    rw [leaves, htext, Option.isNone_none, Bool.and_true] at h
    cases piece with
    | verbatim c => rfl
    | entry | whole => cases h

/-- **Clean patches and cutting.** Cut into pieces again, the result has the pieces that were left
in place, and all else in it stands for itself. -/
theorem IsClean.pieces_apply (h : patch.IsClean ps) (hgenuine : ∀ piece ∈ ps, IsGenuine piece) :
    pieces (patch.apply ps) = ps.flatMap patch.remnant := by
  induction ps with
  | nil => rfl
  | cons piece ps ih =>
    obtain ⟨hpiece, hps⟩ := List.forall_mem_cons.mp hgenuine
    have hrest := ih h.2 hps
    rw [apply_cons, List.flatMap_cons]
    cases hleaves : patch.leaves piece with
    | true =>
      obtain ⟨part, name?, source, hshape, heq, hput⟩ := put_of_leaves hpiece hleaves
      rw [hput, pieces_append hshape, remnant_of_leaves hleaves, hrest, heq]
      rfl
    | false => rw [(h.1 hleaves).pieces_append, remnant_of_not_leaves hleaves, hrest]

/-- The placeholders of the result are those that were left in place. -/
theorem IsClean.filter_pieces_apply (h : patch.IsClean ps)
    (hgenuine : ∀ piece ∈ ps, IsGenuine piece) :
    (pieces (patch.apply ps)).filter Piece.isPlaceholder = ps.filter patch.leaves := by
  have hremnant (piece : Piece) : (patch.remnant piece).filter Piece.isPlaceholder
      = [piece].filter patch.leaves := by
    cases hleaves : patch.leaves piece with
    | true =>
      have hplaceholder : piece.isPlaceholder = true := (Bool.and_eq_true_iff.mp hleaves).1
      rw [remnant_of_leaves hleaves]
      simp [hleaves, hplaceholder]
    | false =>
      rw [remnant_of_not_leaves hleaves]
      simp [hleaves, Piece.isPlaceholder]
  rw [h.pieces_apply hgenuine, List.filter_flatMap]
  simp only [hremnant]
  rw [← List.filter_flatMap, List.flatMap_singleton']

end Patch

/-! ## Placeholders reach over no other ones -/

/-- Behind every opening brace in a text there is something else than an opening brace. -/
def IsSparse (t : Text) : Prop :=
  ∀ before after, t = before ++ openBrace :: after → ∃ c rest, after = c :: rest ∧ c ≠ openBrace

theorem IsSparse.of_append {t u : Text} (h : IsSparse (t ++ u)) : IsSparse u := by
  intro before after heq
  exact h (t ++ before) after (by rw [heq, List.append_assoc])

/-- Behind the first brace of a placeholder, there is only one other opening brace. -/
theorem IsPlaceholder.exists_isSparse {part : BoundName} {name? : Option Text} {source : Text}
    (h : IsPlaceholder part name? source) : ∃ tail, source = openBrace :: tail ∧ IsSparse tail := by
  obtain ⟨c, tail, rfl, htail⟩ := h.exists_eq_cons_cons_cons
  refine ⟨_, rfl, fun before after heq ↦ ?_⟩
  cases before with
  | nil =>
    obtain ⟨-, rfl⟩ := List.cons.inj heq
    exact ⟨c, tail, rfl, fun hc ↦ htail (hc ▸ List.mem_cons_self)⟩
  | cons d before =>
    have hmem : openBrace ∈ c :: tail := by
      rw [(List.cons.inj heq).2]
      exact List.mem_append_right before List.mem_cons_self
    exact absurd hmem htail

namespace Patch

variable {patch other : Patch} {ps : List Piece}

/-- A text without two opening braces side by side stops in front of the first placeholder left in
place, if it goes that far. -/
theorem exists_skipped (hgenuine : ∀ piece ∈ ps, IsGenuine piece) {s left t : Text}
    (hsparse : IsSparse s) (h : s ++ left = t ++ patch.apply ps) :
    ∃ skipped rest t', ps = skipped ++ rest ∧ (∀ piece ∈ skipped, patch.leaves piece = false) ∧
      left = t' ++ patch.apply rest ∧ s ++ t' = t ++ patch.apply skipped := by
  induction ps generalizing s t with
  | nil =>
    refine ⟨[], [], left, rfl, List.forall_mem_nil _, ?_, h⟩
    rw [apply_nil, List.append_nil]
  | cons piece ps ih =>
    obtain ⟨hpiece, hps⟩ := List.forall_mem_cons.mp hgenuine
    rcases List.append_eq_append_iff.mp h with ⟨u, rfl, hleft⟩ | ⟨u, rfl, happly⟩
    · exact ⟨[], piece :: ps, u, rfl, List.forall_mem_nil _, hleft, by simp⟩
    · have hsparse' : IsSparse u := hsparse.of_append
      cases hleaves : patch.leaves piece with
      | true =>
        -- then nothing of the text is left to go on with
        obtain ⟨part, name?, source, hshape, -, hput⟩ := put_of_leaves hpiece hleaves
        obtain ⟨tail, rfl, -⟩ := hshape.exists_eq_cons_cons
        rw [apply_cons, hput] at happly
        cases u with
        | nil => exact ⟨[], piece :: ps, [], rfl, List.forall_mem_nil _, by
            rw [List.nil_append, apply_cons, hput]
            exact happly.symm, by simp⟩
        | cons c u =>
          obtain ⟨rfl, hrest⟩ := List.cons.inj happly
          obtain ⟨d, u', rfl, hd⟩ := hsparse' [] u rfl
          exact absurd (List.cons.inj hrest).1.symm hd
      | false =>
        rw [apply_cons] at happly
        obtain ⟨skipped, rest, t', rfl, hskipped, hleft, hu⟩ := ih hps hsparse' happly.symm
        exact ⟨piece :: skipped, rest, t', rfl, List.forall_mem_cons.mpr ⟨hleaves, hskipped⟩, hleft,
          by rw [List.append_assoc, hu, apply_cons]⟩

/-- What a patch does not leave in place is the same under a patch that puts more texts in. -/
theorem Within.put_eq (h : patch.Within other) {piece : Piece}
    (hleaves : patch.leaves piece = false) :
    other.put piece = patch.put piece ∧ other.leaves piece = false := by
  unfold put
  cases htext : patch.text? piece with
  | some text => rw [leaves, h piece text htext, Option.isNone_some, Bool.and_false]; simp
  | none =>
    rw [leaves, htext, Option.isNone_none, Bool.and_true] at hleaves
    cases piece with
    | verbatim c => rw [other.verbatim]; simp [leaves, Piece.isPlaceholder]
    | entry | whole => cases hleaves

theorem Within.apply_eq (h : patch.Within other) (hps : ∀ piece ∈ ps, patch.leaves piece = false) :
    other.apply ps = patch.apply ps :=
  List.flatMap_congr fun piece hpiece ↦ (h.put_eq (hps piece hpiece)).1

/-- A placeholder that starts in front of patched pieces does so under a patch that puts more texts
in: it reaches over no piece that was left in place. -/
theorem Within.placeholder?_ne_none (h : patch.Within other)
    (hgenuine : ∀ piece ∈ ps, IsGenuine piece) {c : Nat} {t : Text}
    (hfound : placeholder? (c :: t ++ patch.apply ps) ≠ none) :
    placeholder? (c :: t ++ other.apply ps) ≠ none := by
  obtain ⟨⟨part, name?, left⟩, hfound⟩ := Option.ne_none_iff_exists'.mp hfound
  obtain ⟨source, hshape, heq⟩ := placeholder?_eq_some_iff.mp hfound
  obtain ⟨s, hs, hsparse⟩ := hshape.exists_isSparse
  rw [hs] at heq
  obtain ⟨rfl, htail⟩ := List.cons.inj heq
  obtain ⟨skipped, rest, t', rfl, hskipped, -, hsource⟩ :=
    exists_skipped hgenuine hsparse htail.symm
  have hother : openBrace :: t ++ other.apply (skipped ++ rest)
      = source ++ (t' ++ other.apply rest) := by
    rw [apply_append, h.apply_eq hskipped, List.cons_append, ← List.append_assoc t, ← hsource, hs,
      List.append_assoc, List.cons_append]
  rw [hother, placeholder?_eq_some_iff.mpr ⟨source, hshape, rfl⟩]
  exact Option.some_ne_none _

/-- From a clean patch, texts can be taken away. -/
theorem IsClean.of_within (h : patch.Within other) (hgenuine : ∀ piece ∈ ps, IsGenuine piece)
    (hclean : other.IsClean ps) : patch.IsClean ps := by
  induction ps with
  | nil => trivial
  | cons piece ps ih =>
    obtain ⟨-, hps⟩ := List.forall_mem_cons.mp hgenuine
    refine ⟨fun hleaves c t hsuffix ↦ ?_, ih hps hclean.2⟩
    obtain ⟨hput, hleaves'⟩ := h.put_eq hleaves
    by_contra hfound
    exact h.placeholder?_ne_none hps hfound (hclean.1 hleaves' c t (hput ▸ hsuffix))

/-! ## Counting placeholders -/

/-- Behind a placeholder that starts in front of patched pieces, all that were left in place are
still to come. -/
theorem exists_rest_of_placeholder? (hgenuine : ∀ piece ∈ ps, IsGenuine piece) {c : Nat}
    {t left : Text} {part : BoundName} {name? : Option Text}
    (hfound : placeholder? (c :: t ++ patch.apply ps) = some (part, name?, left)) :
    ∃ source rest t', IsPlaceholder part name? source ∧
      c :: t ++ patch.apply ps = source ++ (t' ++ patch.apply rest) ∧ rest <:+ ps ∧
      rest.countP patch.leaves = ps.countP patch.leaves := by
  obtain ⟨source, hshape, heq⟩ := placeholder?_eq_some_iff.mp hfound
  obtain ⟨s, hs, hsparse⟩ := hshape.exists_isSparse
  have htail : s ++ left = t ++ patch.apply ps := by
    rw [hs] at heq
    exact (List.cons.inj heq).2.symm
  obtain ⟨skipped, rest, t', rfl, hskipped, rfl, -⟩ := exists_skipped hgenuine hsparse htail
  have hnone : skipped.countP patch.leaves = 0 :=
    List.countP_eq_zero.mpr fun piece h ↦ by simp [hskipped piece h]
  refine ⟨source, rest, t', hshape, heq, List.suffix_append skipped rest, ?_⟩
  rw [List.countP_append, hnone, Nat.zero_add]

/-- The placeholders of a result are at least those that were left in place. -/
theorem countP_leaves_le (hgenuine : ∀ piece ∈ ps, IsGenuine piece) (t : Text) :
    ps.countP patch.leaves ≤ (pieces (t ++ patch.apply ps)).countP Piece.isPlaceholder := by
  induction hsize : (t ++ patch.apply ps).length + ps.length using Nat.strongRecOn
    generalizing t ps with
  | ind n ih =>
    cases t with
    | nil =>
      cases ps with
      | nil => exact Nat.zero_le _
      | cons piece ps =>
        obtain ⟨hpiece, hps⟩ := List.forall_mem_cons.mp hgenuine
        rw [List.nil_append, apply_cons] at hsize ⊢
        simp only [List.length_append, List.length_cons] at hsize
        cases hleaves : patch.leaves piece with
        | true =>
          obtain ⟨part, name?, source, hshape, -, hput⟩ := put_of_leaves hpiece hleaves
          have hrest := ih _ (by simp; omega) hps [] rfl
          rw [hput, pieces_append hshape, List.countP_cons_of_pos hleaves,
            List.countP_cons_of_pos (isPlaceholder_placeholder ..)]
          exact Nat.succ_le_succ hrest
        | false =>
          rw [List.countP_cons_of_neg (by simp [hleaves])]
          exact ih _ (by simp; omega) hps _ rfl
    | cons c t =>
      simp only [List.length_append, List.length_cons] at hsize
      cases hfound : placeholder? (c :: t ++ patch.apply ps) with
      | none =>
        rw [List.cons_append] at hfound ⊢
        rw [pieces_cons hfound, List.countP_cons_of_neg (by simp [Piece.isPlaceholder])]
        exact ih _ (by simp; omega) hgenuine t rfl
      | some found =>
        obtain ⟨part, name?, left⟩ := found
        obtain ⟨source, rest, t', hshape, heq, hsuffix, hcount⟩ :=
          exists_rest_of_placeholder? hgenuine hfound
        have hlength := congrArg List.length heq
        obtain ⟨tail, hsource, -⟩ := hshape.exists_eq_cons_cons
        rw [hsource] at hlength
        simp only [List.length_append, List.length_cons] at hlength
        have hrest := ih _ (by simp; have := hsuffix.length_le; omega)
          (fun piece h ↦ hgenuine piece (hsuffix.subset h)) t' rfl
        rw [heq, pieces_append hshape, ← hcount,
          List.countP_cons_of_pos (isPlaceholder_placeholder ..)]
        exact Nat.le_succ_of_le hrest

theorem startsNone_of_countP (hgenuine : ∀ piece ∈ ps, IsGenuine piece) {t : Text}
    (h : (pieces (t ++ patch.apply ps)).countP Piece.isPlaceholder ≤ ps.countP patch.leaves) :
    StartsNone t (patch.apply ps) ∧
      (pieces (patch.apply ps)).countP Piece.isPlaceholder ≤ ps.countP patch.leaves := by
  induction t with
  | nil => exact ⟨startsNone_nil _, h⟩
  | cons c t ih =>
    have hnone : placeholder? (c :: t ++ patch.apply ps) = none := by
      rw [Option.eq_none_iff_forall_ne_some]
      rintro ⟨part, name?, left⟩ hfound
      obtain ⟨source, rest, t', hshape, heq, hsuffix, hcount⟩ :=
        exists_rest_of_placeholder? hgenuine hfound
      have hrest : rest.countP patch.leaves
          ≤ (pieces (t' ++ patch.apply rest)).countP Piece.isPlaceholder :=
        countP_leaves_le (fun piece h ↦ hgenuine piece (hsuffix.subset h)) t'
      rw [heq, pieces_append hshape, List.countP_cons_of_pos (isPlaceholder_placeholder ..),
        ← hcount] at h
      exact absurd (Nat.le_trans h hrest) (Nat.not_succ_le_self _)
    rw [List.cons_append] at h hnone
    rw [pieces_cons hnone, List.countP_cons_of_neg (by simp [Piece.isPlaceholder])] at h
    obtain ⟨ht, hrest⟩ := ih h
    exact ⟨startsNone_cons hnone ht, hrest⟩

/-- **Clean patches are told by their results.** A patch is clean if the result has no more
placeholders than were left in place. -/
theorem isClean_of_countP (hgenuine : ∀ piece ∈ ps, IsGenuine piece)
    (h : (pieces (patch.apply ps)).countP Piece.isPlaceholder ≤ ps.countP patch.leaves) :
    patch.IsClean ps := by
  induction ps with
  | nil => trivial
  | cons piece ps ih =>
    obtain ⟨hpiece, hps⟩ := List.forall_mem_cons.mp hgenuine
    rw [apply_cons] at h
    cases hleaves : patch.leaves piece with
    | true =>
      obtain ⟨part, name?, source, hshape, -, hput⟩ := put_of_leaves hpiece hleaves
      rw [hput, pieces_append hshape, List.countP_cons_of_pos hleaves,
        List.countP_cons_of_pos (isPlaceholder_placeholder ..)] at h
      exact ⟨fun hleaves' ↦ by simp [hleaves] at hleaves', ih hps (Nat.le_of_succ_le_succ h)⟩
    | false =>
      rw [List.countP_cons_of_neg (by simp [hleaves])] at h
      obtain ⟨hnone, hrest⟩ := startsNone_of_countP hps h
      exact ⟨fun _ ↦ hnone, ih hps hrest⟩

/-! ## Texts without two opening braces -/

/-- Braces of the template and texts that are put into it cannot make up a placeholder if no two
opening braces stand side by side: neither in a text, nor where two pieces meet. -/
theorem isClean_of_isChain (hspaced : ps.IsChain fun piece next ↦ ¬(piece.mayOpen ∧ next.mayOpen))
    (htexts : ∀ piece ∈ ps, ∀ text ∈ patch.text? piece, ¬[openBrace, openBrace] <:+: text) :
    patch.IsClean ps := by
  induction ps with
  | nil => trivial
  | cons piece ps ih =>
    obtain ⟨hpiece, hps⟩ := List.forall_mem_cons.mp htexts
    refine ⟨fun hleaves c t hsuffix ↦ placeholder?_eq_none fun rest heq ↦ ?_,
      ih hspaced.of_cons hps⟩
    obtain ⟨rfl, hbehind⟩ := List.cons.inj heq
    replace hbehind : t ++ patch.apply ps = openBrace :: rest := hbehind
    cases t with
    | nil =>
      -- the second brace is that of the next piece
      have hopen : piece.mayOpen = true := by
        cases piece with
        | verbatim c =>
          obtain rfl : c = openBrace := by
            simpa [put, patch.verbatim, Piece.source, eq_comm] using hsuffix.subset
          rfl
        | entry | whole => rfl
      cases ps with
      | nil => cases hbehind
      | cons next ps =>
        have hnext : ¬next.mayOpen = true := fun hnext ↦
          (List.isChain_cons_cons.mp hspaced).1 ⟨hopen, hnext⟩
        cases next with
        | verbatim c =>
          rw [List.nil_append, apply_cons, put, patch.verbatim] at hbehind
          exact hnext (decide_eq_true (List.cons.inj hbehind).1)
        | entry | whole => exact hnext rfl
    | cons d t =>
      obtain ⟨rfl, -⟩ := List.cons.inj hbehind
      have hput : [openBrace, openBrace] <:+: patch.put piece :=
        List.IsInfix.trans ⟨[], t, rfl⟩ hsuffix.isInfix
      cases htext : patch.text? piece with
      | some text =>
        rw [put, htext] at hput
        exact hpiece text htext hput
      | none =>
        cases piece with
        | verbatim c =>
          rw [put, htext] at hput
          exact absurd hput.length_le (by simp [Piece.source])
        | entry | whole => simp [leaves, htext, Piece.isPlaceholder] at hleaves

end Patch

end Template

end MockApi
