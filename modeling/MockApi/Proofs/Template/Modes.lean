import Mathlib.Data.List.Induction
import MockApi.Proofs.Template.Patching
import MockApi.Proofs.Template.Replacing

/-!
# Where the two modes agree

A single pass puts texts in the places of pieces all at once. In sequence, the same texts come in
one after another, and each time the whole text is cut into pieces anew. The two agree as long as
the texts that have come in neither bring placeholders along nor make them up together with what
stands around them: then the pieces of every intermediate text are those of the template, replaced
ones apart.

Besides, both modes have to find the same entry for each placeholder. They do not if a name has
braces or white space at its ends, or if a placeholder has white space between the point and the
name, which only a single pass overlooks.
-/

namespace MockApi

variable {stack : Stack}

namespace Piece

/-- What a placeholder refers to. -/
def reference? : Piece → Option Template.Reference
  | verbatim _ => none
  | entry part name _ => some (.entry part name)
  | whole part _ => some (.whole part)

/-- A placeholder has nothing but its reference between its braces, white space around it apart. -/
def IsTight (piece : Piece) : Prop :=
  ∀ reference ∈ piece.reference?, reference.Spells piece.source

instance (piece : Piece) : Decidable piece.IsTight :=
  decidable_of_iff (∀ reference ∈ piece.reference?, reference.isSpelledBy piece = true) <|
    forall₂_congr fun _ _ ↦ Template.Reference.isSpelledBy_iff

end Piece

namespace Template

/-! ## Edits one after another -/

/-- A reference with the text that takes its place. -/
abbrev Edit := Reference × Text

/-- The text with edits made one after another. -/
def editAll (edits : List Edit) (t : Text) : Text :=
  edits.foldl (fun t edit ↦ replace edit.1.inside edit.2 t) t

theorem isSpelledBy_verbatim (reference : Reference) (c : Nat) :
    reference.isSpelledBy (.verbatim c) = false := by
  rw [Reference.isSpelledBy, afterExactly?_eq_none (by simp [Piece.source])]
  rfl

/-- The patch that makes all edits at once; of several edits for one reference the first counts. -/
def Patch.ofEdits (edits : List Edit) : Patch where
  text? piece := (edits.find? fun edit ↦ edit.1.isSpelledBy piece).map Prod.snd
  verbatim c := by simp [isSpelledBy_verbatim]

theorem Patch.text?_ofEdits_eq_lookup {edits : List Edit} {piece : Piece} {reference : Reference}
    (h : ∀ edit ∈ edits, edit.1.isSpelledBy piece = true ↔ reference = edit.1) :
    (Patch.ofEdits edits).text? piece = edits.lookup reference := by
  induction edits with
  | nil => rfl
  | cons edit edits ih =>
    obtain ⟨hedit, hedits⟩ := List.forall_mem_cons.mp h
    rw [List.lookup_cons, ← ih hedits]
    by_cases hsame : reference = edit.1
    · simp [Patch.ofEdits, hedit.mpr hsame, hsame]
    · simp [Patch.ofEdits, mt hedit.mp hsame, beq_eq_false_iff_ne.mpr hsame]

theorem Patch.within_ofEdits_append (edits edits' : List Edit) :
    (Patch.ofEdits edits).Within (Patch.ofEdits (edits ++ edits')) := by
  intro piece text h
  obtain ⟨edit, hfind, rfl⟩ := Option.map_eq_some_iff.mp h
  simp only [Patch.ofEdits, List.find?_append, hfind]
  rfl

/-- One more edit for what a patch has left of a piece. -/
theorem flatMap_putInto_remnant (edits : List Edit) (edit : Edit) (piece : Piece) :
    ((Patch.ofEdits edits).remnant piece).flatMap (putInto edit.1 edit.2)
      = (Patch.ofEdits (edits ++ [edit])).put piece := by
  unfold Patch.remnant Patch.put
  cases htext : (Patch.ofEdits edits).text? piece with
  | some text =>
    rw [Patch.within_ofEdits_append edits [edit] piece text htext, Option.getD_some,
      List.flatMap_map]
    have hput (c : Nat) : putInto edit.1 edit.2 (.verbatim c) = [c] :=
      if_neg (by simp [isSpelledBy_verbatim])
    simp only [hput]
    exact List.flatMap_singleton' text
  | none =>
    have hnone : edits.find? (fun edit ↦ edit.1.isSpelledBy piece) = none :=
      Option.map_eq_none_iff.mp htext
    simp only [Patch.ofEdits, List.find?_append, hnone, List.flatMap_singleton]
    cases hspelled : edit.1.isSpelledBy piece <;> simp [putInto, hspelled]

/-- **Edits one after another are made all at once** if the patch is clean. -/
theorem editAll_eq_apply {edits : List Edit} {template : Text}
    (hplain : ∀ edit ∈ edits, edit.1.IsPlain)
    (hclean : (Patch.ofEdits edits).IsClean (pieces template)) :
    editAll edits template = (Patch.ofEdits edits).apply (pieces template) := by
  induction edits using List.reverseRecOn with
  | nil =>
    have hput : (Patch.ofEdits []).put = Piece.source := rfl
    rw [Patch.apply, hput, source_pieces]
    rfl
  | append_singleton edits edit ih =>
    obtain ⟨hedits, hedit⟩ := List.forall_mem_append.mp hplain
    have hbefore : (Patch.ofEdits edits).IsClean (pieces template) :=
      hclean.of_within (Patch.within_ofEdits_append edits [edit]) isGenuine_of_mem_pieces
    have hlast : editAll (edits ++ [edit]) template
        = replace edit.1.inside edit.2 (editAll edits template) := by
      simp [editAll]
    rw [hlast, ih hedits hbefore, replace_eq_flatMap_pieces (hedit edit List.mem_cons_self),
      hbefore.pieces_apply isGenuine_of_mem_pieces, List.flatMap_assoc]
    exact List.flatMap_congr fun piece _ ↦ flatMap_putInto_remnant edits edit piece

/-! ## The edits of a request -/

/-- The text in the place of an entry. -/
def entryText [Stack] (value : Value) : Text := value.toReplacement.toOption.getD []

/-- The edits for the entries of a part of a request. -/
def entryEdits [Stack] (part : BoundName) (entries : Entries) : List Edit :=
  entries.map fun entry ↦ (.entry part entry.1, entryText entry.2)

/-- The edits for the body of a request. -/
def bodyEdits [Stack] (body : Value) : List Edit :=
  if body.isTruthy then
    entryEdits .body (entriesOf body) ++ [(.whole .body, body.toJson.toOption.getD [])]
  else []

/-- The edits for a request, in the order in which they are made. -/
def editsFor [Stack] (context : RequestContext) : List Edit :=
  entryEdits .path (entriesOf context.path) ++ entryEdits .query (entriesOf context.query)
    ++ bodyEdits context.body

theorem toReplacement_eq_ok {value : Value} (h : value.Writable) :
    value.toReplacement = .ok (entryText value) := by
  obtain ⟨text, htext⟩ := Value.exists_toReplacement_eq_ok_iff.mpr h
  rw [entryText, htext]
  rfl

theorem replaceEntries_eq_editAll {part : BoundName} {entries : Entries}
    (h : ∀ value ∈ entries.map Prod.snd, value.Writable) (t : Text) :
    replaceEntries part entries t = .ok (editAll (entryEdits part entries) t) := by
  induction entries generalizing t with
  | nil => rfl
  | cons entry entries ih =>
    obtain ⟨hentry, hentries⟩ := List.forall_mem_cons.mp h
    rw [replaceEntries_cons, toReplacement_eq_ok hentry, ok_bind, ih hentries]
    rfl

theorem replaceBody_eq_editAll {context : RequestContext} (hbody : context.body.isHuge = false)
    (h : ∀ value ∈ bodyValues context.body, value.Writable) (t : Text) :
    replaceBody context t = .ok (editAll (bodyEdits context.body) t) := by
  unfold replaceBody bodyEdits
  rw [Value.truthy_eq, hbody]
  unfold bodyValues at h
  cases htruthy : context.body.isTruthy with
  | false => rfl
  | true =>
    rw [htruthy, if_pos rfl] at h
    obtain ⟨hentries, hwhole⟩ := List.forall_mem_append.mp h
    obtain ⟨text, htext⟩ := Value.exists_toJson_eq_ok_iff.mpr
      (hwhole context.body List.mem_cons_self)
    simp only [Bool.false_eq_true, if_false, if_true, ok_bind, replaceEntries_eq_editAll hentries,
      htext]
    simp [editAll, Except.toOption, Reference.inside, Reference.part, Reference.suffix]

/-- In sequence, the edits for the request are made one after another. -/
theorem renderSequential_eq_editAll {template : Text} {context : RequestContext}
    (hbody : context.body.isHuge = false)
    (h : ∀ value ∈ written .sequential template context, value.Writable) :
    renderSequential template context = .ok (editAll (editsFor context) template) := by
  simp only [written, List.forall_mem_append] at h
  obtain ⟨⟨hpath, hquery⟩, hvalues⟩ := h
  rw [renderSequential_eq, replaceEntries_eq_editAll hpath, ok_bind,
    replaceEntries_eq_editAll hquery, ok_bind, replaceBody_eq_editAll hbody hvalues]
  simp [editAll, editsFor]

/-! ## One edit for a piece -/

/-- The text that a piece is replaced by, from the value that takes its place. -/
def replacementText [Stack] : Piece → Value → Text
  | .whole _ _, value => value.toJson.toOption.getD []
  | _, value => entryText value

theorem renderPiece_eq {context : RequestContext} {piece : Piece}
    (h : ∀ value ∈ replacement? context piece, value.Writable) :
    renderPiece context context.body.isTruthy piece
      = .ok (((replacement? context piece).map (replacementText piece)).getD piece.source) := by
  cases piece with
  | verbatim c => rfl
  | whole part source =>
    cases part with
    | path | query => rfl
    | body =>
      cases htruthy : context.body.isTruthy with
      | false => simp [renderPiece, replacement?, htruthy, Piece.source]
      | true =>
        rw [replacement?, htruthy, if_pos rfl] at h
        obtain ⟨text, htext⟩ := Value.exists_toJson_eq_ok_iff.mpr (h context.body rfl)
        simp [renderPiece, replacement?, replacementText, htruthy, htext, Except.toOption]
  | entry part name source =>
    rw [replacement?] at h
    cases hvalue : (entriesOf (context.get part)).get? name with
    | none => simp [renderPiece, replacement?, hvalue, Piece.source]
    | some value =>
      simp [renderPiece, replacement?, replacementText, hvalue,
        toReplacement_eq_ok (h value hvalue)]

/-- A value that does not count as true has no entries. -/
theorem entriesOf_of_not_isTruthy {value : Value} (h : value.isTruthy = false) :
    entriesOf value = [] := by
  cases value with
  | list | object => cases h
  | _ => rfl

theorem lookup_entryEdits_entry (part part' : BoundName) (name : Text) (entries : Entries) :
    (entryEdits part entries).lookup (.entry part' name)
      = if part' = part then (entries.get? name).map entryText else none := by
  induction entries with
  | nil => simp [entryEdits, Table.get?]
  | cons entry entries ih =>
    obtain ⟨key, value⟩ := entry
    have hcons : entryEdits part ((key, value) :: entries)
        = (.entry part key, entryText value) :: entryEdits part entries := rfl
    have hbeq : (Reference.entry part' name == Reference.entry part key)
        = (decide (part' = part) && (name == key)) := by
      rw [Bool.eq_iff_iff, beq_iff_eq, Reference.entry.injEq, Bool.and_eq_true, decide_eq_true_iff,
        beq_iff_eq]
    rw [hcons, List.lookup_cons, ih, hbeq, Table.get?, Table.get?, List.lookup_cons]
    by_cases hpart : part' = part
    · cases hname : name == key <;> simp [hpart]
    · simp [hpart]

theorem lookup_entryEdits_whole (part part' : BoundName) (entries : Entries) :
    (entryEdits part entries).lookup (.whole part') = none := by
  rw [List.lookup_eq_none_iff]
  intro edit hedit
  obtain ⟨entry, -, rfl⟩ := List.mem_map.mp hedit
  exact bne_iff_ne.mpr Reference.noConfusion

theorem lookup_bodyEdits_entry (body : Value) (part : BoundName) (name : Text) :
    (bodyEdits body).lookup (.entry part name)
      = if part = .body then ((entriesOf body).get? name).map entryText else none := by
  unfold bodyEdits
  cases htruthy : body.isTruthy with
  | false => simp [entriesOf_of_not_isTruthy htruthy, Table.get?]
  | true =>
    have hne : (Reference.entry part name == .whole .body) = false :=
      beq_eq_false_iff_ne.mpr Reference.noConfusion
    rw [if_pos rfl, List.lookup_append, lookup_entryEdits_entry, List.lookup_cons, hne]
    simp

theorem lookup_bodyEdits_whole (body : Value) (part : BoundName) :
    (bodyEdits body).lookup (.whole part)
      = if part = .body ∧ body.isTruthy then some (body.toJson.toOption.getD []) else none := by
  unfold bodyEdits
  cases body.isTruthy with
  | false => simp
  | true =>
    rw [if_pos rfl, List.lookup_append, lookup_entryEdits_whole, List.lookup_cons]
    cases part <;> rfl

/-- The edit for a reference is the one that a placeholder with this reference asks for. -/
theorem lookup_editsFor {context : RequestContext} {piece : Piece} {reference : Reference}
    (h : piece.reference? = some reference) :
    (editsFor context).lookup reference
      = (replacement? context piece).map (replacementText piece) := by
  cases piece with
  | verbatim c => cases h
  | entry part name source =>
    obtain rfl := Option.some.inj h
    have htext : replacementText (.entry part name source) = entryText := rfl
    rw [editsFor, List.lookup_append, List.lookup_append, lookup_entryEdits_entry,
      lookup_entryEdits_entry, lookup_bodyEdits_entry, replacement?, htext]
    cases part <;> simp [RequestContext.get]
  | whole part source =>
    obtain rfl := Option.some.inj h
    rw [editsFor, List.lookup_append, List.lookup_append, lookup_entryEdits_whole,
      lookup_entryEdits_whole, lookup_bodyEdits_whole]
    cases part with
    | path | query => rfl
    | body =>
      cases htruthy : context.body.isTruthy <;> simp [replacement?, replacementText, htruthy]

/-! ## Placeholders and their edits -/

theorem reference?_placeholder (reference : Reference) (source : Text) :
    (Piece.placeholder reference.part reference.name? source).reference? = some reference := by
  cases reference <;> rfl

/-- A piece that spells a plain reference is a placeholder with this reference. -/
theorem reference?_of_isSpelledBy {piece : Piece} {reference : Reference}
    (hgenuine : IsGenuine piece) (hplain : reference.IsPlain)
    (h : reference.isSpelledBy piece = true) : piece.reference? = some reference := by
  cases hgenuine with
  | verbatim c => rw [isSpelledBy_verbatim] at h; cases h
  | @placeholder part name? source hshape =>
    rw [Reference.isSpelledBy_iff, source_placeholder] at h
    have hfound : placeholder? (source ++ []) = some (part, name?, []) :=
      placeholder?_eq_some_iff.mpr ⟨source, hshape, rfl⟩
    rw [placeholder?_eq_some_iff.mpr ⟨source, h.isPlaceholder hplain, rfl⟩] at hfound
    obtain ⟨rfl, rfl⟩ : reference.part = part ∧ reference.name? = name? := by
      simpa using hfound
    exact reference?_placeholder reference source

theorem isSpelledBy_iff_of_isTight {piece : Piece} {reference reference' : Reference}
    (hgenuine : IsGenuine piece) (hplain : reference'.IsPlain) (htight : piece.IsTight)
    (h : piece.reference? = some reference) :
    reference'.isSpelledBy piece = true ↔ reference = reference' := by
  constructor
  · intro hspelled
    have hsame := reference?_of_isSpelledBy hgenuine hplain hspelled
    rw [h] at hsame
    exact Option.some.inj hsame
  · rintro rfl
    exact Reference.isSpelledBy_iff.mpr (htight reference h)

/-- What the edits for a request put in the place of a piece. -/
theorem text?_ofEdits_editsFor {context : RequestContext} {piece : Piece}
    (hplain : ∀ edit ∈ editsFor context, edit.1.IsPlain) (hgenuine : IsGenuine piece)
    (htight : (replacement? context piece).isSome → piece.IsTight) :
    (Patch.ofEdits (editsFor context)).text? piece
      = (replacement? context piece).map (replacementText piece) := by
  have hlookup {reference : Reference} (h : piece.reference? = some reference) :
      (editsFor context).lookup reference
        = (replacement? context piece).map (replacementText piece) := lookup_editsFor h
  cases hvalue : replacement? context piece with
  | none =>
    -- an edit for the piece would be one for its reference
    rw [hvalue] at hlookup
    have hnone : (editsFor context).find? (fun edit ↦ edit.1.isSpelledBy piece) = none := by
      refine List.find?_eq_none.mpr fun edit hedit hspelled ↦ ?_
      have hreference := reference?_of_isSpelledBy hgenuine (hplain edit hedit) hspelled
      have hne := List.lookup_eq_none_iff.mp (hlookup hreference) edit hedit
      exact bne_iff_ne.mp hne rfl
    rw [Patch.ofEdits]
    dsimp only
    rw [hnone]
    rfl
  | some value =>
    obtain ⟨reference, hreference⟩ : ∃ reference, piece.reference? = some reference := by
      cases piece with
      | verbatim c => cases hvalue
      | entry part name source => exact ⟨_, rfl⟩
      | whole part source => exact ⟨_, rfl⟩
    have htight : piece.IsTight := htight (hvalue ▸ rfl)
    rw [← hvalue, ← hlookup hreference]
    exact Patch.text?_ofEdits_eq_lookup fun edit hedit ↦
      isSpelledBy_iff_of_isTight hgenuine (hplain edit hedit) htight hreference

/-! ## Both modes -/

variable {template : Text} {context : RequestContext}

/-- The names of all entries of a request can stand in placeholders. -/
def HasPlainNames (context : RequestContext) : Prop :=
  ∀ part, ∀ entry ∈ entriesOf (context.get part), IsPlainName entry.1

/-- The texts that take the places of entries and of the whole body. -/
def replacements [Stack] (context : RequestContext) : List Text :=
  (BoundName.all.flatMap fun part ↦
      (entriesOf (context.get part)).filterMap fun entry ↦ entry.2.toReplacement.toOption)
    ++ context.body.toJson.toOption.toList

/-- The placeholders of a text are those that were left in place in a template. -/
def KeepsPlaceholders (context : RequestContext) (template t : Text) : Prop :=
  (pieces t).filter Piece.isPlaceholder
    = (pieces template).filter fun piece ↦
        piece.isPlaceholder && (replacement? context piece).isNone

/-- No two opening braces or placeholders of a template stand side by side. -/
def IsSpaced (template : Text) : Prop :=
  (pieces template).IsChain fun piece next ↦ ¬(piece.mayOpen ∧ next.mayOpen)

instance (template : Text) : Decidable (IsSpaced template) :=
  inferInstanceAs (Decidable (List.IsChain _ _))

theorem HasPlainNames.isPlain (h : HasPlainNames context) :
    ∀ edit ∈ editsFor context, edit.1.IsPlain := by
  have hentries (part : BoundName) :
      ∀ edit ∈ entryEdits part (entriesOf (context.get part)), edit.1.IsPlain := by
    intro edit hedit
    obtain ⟨entry, hentry, rfl⟩ := List.mem_map.mp hedit
    intro name hname
    exact Option.some.inj hname ▸ h part entry hentry
  have hbody : ∀ edit ∈ bodyEdits context.body, edit.1.IsPlain := by
    unfold bodyEdits
    split
    · refine List.forall_mem_append.mpr ⟨hentries .body, List.forall_mem_singleton.mpr ?_⟩
      intro name hname
      cases hname
    · exact List.forall_mem_nil _
  exact List.forall_mem_append.mpr
    ⟨List.forall_mem_append.mpr ⟨hentries .path, hentries .query⟩, hbody⟩

/-- What a single pass writes is written in sequence, too. -/
theorem mem_written_of_replacement? {piece : Piece} {value : Value}
    (h : replacement? context piece = some value) :
    value ∈ written .sequential template context := by
  have hbody {v : Value} (htruthy : context.body.isTruthy = true)
      (hv : v ∈ entryValues context.body ∨ v = context.body) :
      v ∈ bodyValues context.body := by
    simpa [bodyValues, htruthy] using hv
  simp only [written, List.mem_append]
  cases piece with
  | verbatim c => cases h
  | whole part source =>
    cases part with
    | path | query => cases h
    | body =>
      obtain ⟨htruthy, hvalue⟩ := Option.ite_none_right_eq_some.mp h
      obtain rfl := Option.some.inj hvalue
      exact .inr (hbody htruthy (.inr rfl))
  | entry part name source =>
    have hvalue : value ∈ entryValues (context.get part) :=
      List.mem_map.mpr ⟨_, Table.mem_of_get?_eq_some h, rfl⟩
    cases part with
    | path => exact .inl (.inl hvalue)
    | query => exact .inl (.inr hvalue)
    | body =>
      refine .inr (hbody ?_ (.inl hvalue))
      by_contra hfalse
      rw [entryValues, RequestContext.get,
        entriesOf_of_not_isTruthy (Bool.not_eq_true _ ▸ hfalse)] at hvalue
      cases hvalue

/-- What a piece is replaced by is a replacement. -/
theorem replacementText_mem_replacements {piece : Piece} {value : Value}
    (h : replacement? context piece = some value) (hvalue : value.Writable) :
    replacementText piece value ∈ replacements context := by
  refine List.mem_append.mpr ?_
  cases piece with
  | verbatim c => cases h
  | entry part name source =>
    refine .inl (List.mem_flatMap.mpr ⟨part, by cases part <;> decide, ?_⟩)
    refine List.mem_filterMap.mpr ⟨_, Table.mem_of_get?_eq_some h, ?_⟩
    rw [toReplacement_eq_ok hvalue]
    rfl
  | whole part source =>
    cases part with
    | path | query => cases h
    | body =>
      obtain ⟨-, hbody⟩ := Option.ite_none_right_eq_some.mp h
      obtain rfl := Option.some.inj hbody
      obtain ⟨text, htext⟩ := Value.exists_toJson_eq_ok_iff.mpr hvalue
      refine .inr (Option.mem_toList.mpr ?_)
      rw [replacementText, htext]
      rfl

/-- **Where the two modes agree.** If filling in succeeds in sequence, it does in a single pass, and
with the same result if the single pass leaves no placeholders but those without a replacement. This
is so if neither a replacement nor the template brings two opening braces together. -/
theorem render_modes_agree {text : Text} (hnames : HasPlainNames context)
    (htight : ∀ piece ∈ pieces template, (replacement? context piece).isSome → piece.IsTight)
    (h : render .sequential template context = .ok text) :
    ∃ t, render .singlePass template context = .ok t ∧
      (KeepsPlaceholders context template t → t = text) ∧
      (IsSpaced template →
        (∀ u ∈ replacements context, ¬[openBrace, openBrace] <:+: u) →
        KeepsPlaceholders context template t) := by
  obtain ⟨hbody, hwritable⟩ := exists_render_eq_ok_iff.mp ⟨text, h⟩
  let patch := Patch.ofEdits (editsFor context)
  have htext? : ∀ piece ∈ pieces template,
      patch.text? piece = (replacement? context piece).map (replacementText piece) :=
    fun piece hpiece ↦ text?_ofEdits_editsFor hnames.isPlain
      (isGenuine_of_mem_pieces piece hpiece) (htight piece hpiece)
  have hleaves : ∀ piece ∈ pieces template, patch.leaves piece
      = (piece.isPlaceholder && (replacement? context piece).isNone) := by
    intro piece hpiece
    rw [Patch.leaves, htext? piece hpiece, Option.isNone_map]
  have hsequential : text = editAll (editsFor context) template := by
    rw [render, renderSequential_eq_editAll hbody hwritable] at h
    exact (Except.ok.inj h).symm
  have hsingle : render .singlePass template context = .ok (patch.apply (pieces template)) := by
    have hpiece : ∀ piece ∈ pieces template,
        renderPiece context context.body.isTruthy piece = .ok (patch.put piece) := by
      intro piece hpiece
      rw [Patch.put, htext? piece hpiece]
      exact renderPiece_eq fun value hvalue ↦ hwritable value (mem_written_of_replacement? hvalue)
    rw [render, renderSinglePass_eq_fillIn hbody, fillIn, mapM_eq_ok_map hpiece, ok_bind,
      pure_eq_ok, Patch.apply, List.flatMap_def]
  refine ⟨_, hsingle, fun hkeeps ↦ ?_, fun hspaced htexts ↦ ?_⟩
  · have hclean : patch.IsClean (pieces template) := by
      refine Patch.isClean_of_countP isGenuine_of_mem_pieces (Nat.le_of_eq ?_)
      rw [List.countP_eq_length_filter, List.countP_eq_length_filter, hkeeps,
        List.filter_congr hleaves]
    rw [hsequential, editAll_eq_apply hnames.isPlain hclean]
  · have hclean : patch.IsClean (pieces template) := by
      refine Patch.isClean_of_isChain hspaced fun piece hpiece t ht ↦ ?_
      rw [htext? piece hpiece] at ht
      obtain ⟨value, hvalue, rfl⟩ := Option.map_eq_some_iff.mp ht
      exact htexts _ (replacementText_mem_replacements hvalue
        (hwritable value (mem_written_of_replacement? hvalue)))
    rw [KeepsPlaceholders, hclean.filter_pieces_apply isGenuine_of_mem_pieces]
    exact List.filter_congr hleaves

/-- Placeholders with white space around them, one that has no replacement and one for the body. -/
theorem render_modes_agree_order :
    letI : Stack := .usual
    let context : RequestContext :=
      ⟨.ofEntries [("id", .text "7")], .null, .ofEntries [("item", .text "tea")]⟩
    let template : Text := "\x7b\x7bpath.id\x7d\x7d: \x7b\x7b body.item \x7d\x7d, "
      ++ "\x7b\x7bquery.none\x7d\x7d \x7b\x7bbody\x7d\x7d"
    let text : Text := "7: tea, \x7b\x7bquery.none\x7d\x7d \x7b\"item\":\"tea\"\x7d"
    HasPlainNames context ∧
      (∀ piece ∈ pieces template, (replacement? context piece).isSome → piece.IsTight) ∧
      IsSpaced template ∧ (∀ u ∈ replacements context, ¬[openBrace, openBrace] <:+: u) ∧
      render .sequential template context = .ok text ∧
      render .singlePass template context = .ok text := by
  intro context template text
  have hnames : HasPlainNames context := by
    intro part
    cases part <;> decide
  have htight : ∀ piece ∈ pieces template,
      (replacement? context piece).isSome → piece.IsTight := by decide
  have hspaced : IsSpaced template := by decide
  have htexts : ∀ u ∈ @replacements .usual context, ¬[openBrace, openBrace] <:+: u := by decide
  have hsequential : @render .usual .sequential template context = .ok text := rfl
  obtain ⟨t, ht, hkeeps, hclaim⟩ := render_modes_agree hnames htight hsequential
  exact ⟨hnames, htight, hspaced, htexts, hsequential, hkeeps (hclaim hspaced htexts) ▸ ht⟩

/-- Without two opening braces in any replacement, the modes differ if a replacement makes up a
placeholder with the braces of the template around it, if there is white space between the point and
a name, and if a name has white space or a brace at its end. -/
theorem render_modes_differ :
    letI : Stack := .usual
    let around : RequestContext :=
      ⟨.ofEntries [("a", .text "query.b")], .ofEntries [("b", .text "1")], .null⟩
    let named (name : Text) : RequestContext := ⟨.ofEntries [(name, .text "1")], .null, .null⟩
    (∀ context ∈ [around, named "a", named " a", named "a\x7d"],
        ∀ u ∈ replacements context, ¬[openBrace, openBrace] <:+: u) ∧
      render .singlePass "\x7b\x7b\x7b\x7bpath.a\x7d\x7d\x7d\x7d" around
        = .ok "\x7b\x7bquery.b\x7d\x7d" ∧
      render .sequential "\x7b\x7b\x7b\x7bpath.a\x7d\x7d\x7d\x7d" around = .ok "1" ∧
      render .singlePass "\x7b\x7bpath. a\x7d\x7d" (named "a") = .ok "1" ∧
      render .sequential "\x7b\x7bpath. a\x7d\x7d" (named "a")
        = .ok "\x7b\x7bpath. a\x7d\x7d" ∧
      render .singlePass "\x7b\x7bpath. a\x7d\x7d" (named " a")
        = .ok "\x7b\x7bpath. a\x7d\x7d" ∧
      render .sequential "\x7b\x7bpath. a\x7d\x7d" (named " a") = .ok "1" ∧
      render .singlePass "\x7b\x7bpath.a\x7d\x7d\x7d" (named "a\x7d")
        = .ok "\x7b\x7bpath.a\x7d\x7d\x7d" ∧
      render .sequential "\x7b\x7bpath.a\x7d\x7d\x7d" (named "a\x7d") = .ok "1" := by
  intro around named
  exact ⟨by decide +kernel, rfl, rfl, rfl, rfl, rfl, rfl, rfl, rfl⟩

end Template

end MockApi
