import MockApi.Condition.Expr
import MockApi.Text.Blank

/-!
# Placeholders

A placeholder stands between double braces: one of the bound names, then optionally a point and the
name of an entry, with white space allowed around the whole. Names hold no braces, so a placeholder
ends at the first double brace or is none.

Cutting a template into pieces depends on the template alone; the sources of the pieces make up the
template again.
-/

namespace MockApi

/-- A part of a template. -/
inductive Piece
  /-- A code point that stands for itself. -/
  | verbatim (c : Nat)
  /-- A placeholder for an entry of a part of the request, with its source. -/
  | entry (part : BoundName) (name source : Text)
  /-- A placeholder for a part of the request, with its source. -/
  | whole (part : BoundName) (source : Text)
deriving DecidableEq, Repr

namespace Piece

/-- The text that a piece was cut from. -/
def source : Piece → Text
  | verbatim c => [c]
  | entry _ _ source => source
  | whole _ source => source

end Piece

namespace Template

/-- An opening brace. -/
def openBrace : Nat := 0x7B

/-- A closing brace. -/
def closeBrace : Nat := 0x7D

/-- The text after two opening braces. -/
def afterOpening? : Text → Option Text
  | a :: b :: rest => if a = openBrace ∧ b = openBrace then some rest else none
  | _ => none

/-- The text after two closing braces. -/
def afterClosing? : Text → Option Text
  | a :: b :: rest => if a = closeBrace ∧ b = closeBrace then some rest else none
  | _ => none

/-- The bound name at the start of a text, and the text after it. -/
def boundName? (t : Text) : Option (BoundName × Text) :=
  BoundName.all.findSome? fun name ↦
    (name.spelling.isPrefixOf? t).map fun rest ↦ (name, rest)

/-- Whether a code point is a brace. -/
def isBrace (c : Nat) : Bool := c = openBrace || c = closeBrace

/-- The placeholder at the start of a text: the bound name, the name of the entry if there is a
point, and the text after the placeholder. -/
def placeholder? (t : Text) : Option (BoundName × Option Text × Text) := do
  let rest ← afterOpening? t
  let (part, rest) ← boundName? (rest.dropWhile Text.isBlank)
  match rest with
  | c :: inside =>
    if c = '.'.toNat then
      let left ← afterClosing? (inside.dropWhile fun c ↦ !isBrace c)
      return (part, some (Text.trim (inside.takeWhile fun c ↦ !isBrace c)), left)
    else
      let left ← afterClosing? (rest.dropWhile Text.isBlank)
      return (part, none, left)
  | [] => none

/-- The pieces of a text, at most `steps` of them. -/
def piecesWithin : Nat → Text → List Piece
  | 0, t => t.map .verbatim
  | _, [] => []
  | steps + 1, c :: rest =>
    match placeholder? (c :: rest) with
    | none => .verbatim c :: piecesWithin steps rest
    | some (part, name?, left) =>
      let source := (c :: rest).take ((c :: rest).length - left.length)
      (match name? with
        | some name => .entry part name source
        | none => .whole part source) :: piecesWithin steps left

/-- The pieces of a template. -/
def pieces (template : Text) : List Piece := piecesWithin template.length template

/-- The names of the entries of a part that a template refers to, in order of first mention. -/
def namesOf (part : BoundName) (template : Text) : List Text :=
  (pieces template).foldl (fun names piece ↦ match piece with
    | .entry p name _ => if p = part ∧ !names.contains name then names ++ [name] else names
    | _ => names) []

/-! ## Pieces tile the template -/

theorem afterOpening?_suffix {t rest : Text} (h : afterOpening? t = some rest) : rest <:+ t := by
  unfold afterOpening? at h
  split at h
  · simp only [Option.ite_none_right_eq_some, Option.some.injEq] at h
    obtain ⟨-, rfl⟩ := h
    exact (List.suffix_cons _ _).trans (List.suffix_cons _ _)
  · simp at h

theorem afterClosing?_suffix {t rest : Text} (h : afterClosing? t = some rest) : rest <:+ t := by
  unfold afterClosing? at h
  split at h
  · simp only [Option.ite_none_right_eq_some, Option.some.injEq] at h
    obtain ⟨-, rfl⟩ := h
    exact (List.suffix_cons _ _).trans (List.suffix_cons _ _)
  · simp at h

theorem boundName?_suffix {t rest : Text} {part : BoundName}
    (h : boundName? t = some (part, rest)) : rest <:+ t := by
  unfold boundName? at h
  obtain ⟨name, -, hn⟩ := List.exists_of_findSome?_eq_some h
  obtain ⟨l, hl, heq⟩ := Option.map_eq_some_iff.mp hn
  cases heq
  exact ⟨_, (Text.eq_append_of_isPrefixOf? hl).symm⟩

theorem placeholder?_suffix {t left : Text} {part : BoundName} {name? : Option Text}
    (h : placeholder? t = some (part, name?, left)) : left <:+ t := by
  simp only [placeholder?, bind, Option.bind_eq_some_iff] at h
  obtain ⟨rest, hopen, ⟨p, rest'⟩, hname, h⟩ := h
  have hrest : rest' <:+ t :=
    (boundName?_suffix hname).trans ((List.dropWhile_suffix _).trans (afterOpening?_suffix hopen))
  refine List.IsSuffix.trans ?_ hrest
  cases rest' with
  | nil => simp at h
  | cons c inside =>
    simp only at h
    split at h
    · obtain ⟨l, hl, h⟩ := Option.bind_eq_some_iff.mp h
      cases h
      exact (afterClosing?_suffix hl).trans
        ((List.dropWhile_suffix _).trans (List.suffix_cons _ _))
    · obtain ⟨l, hl, h⟩ := Option.bind_eq_some_iff.mp h
      cases h
      exact (afterClosing?_suffix hl).trans (List.dropWhile_suffix _)

theorem source_piecesWithin (steps : Nat) (t : Text) :
    (piecesWithin steps t).flatMap Piece.source = t := by
  induction steps generalizing t with
  | zero =>
    induction t with
    | nil => rfl
    | cons c t ih =>
      simp only [piecesWithin, List.map_cons, List.flatMap_cons, Piece.source] at ih ⊢
      rw [ih]
      rfl
  | succ steps ih =>
    cases t with
    | nil => rfl
    | cons c rest =>
      unfold piecesWithin
      cases h : placeholder? (c :: rest) with
      | none => simp [Piece.source, ih]
      | some found =>
        obtain ⟨part, name?, left⟩ := found
        obtain ⟨source, hs⟩ := placeholder?_suffix h
        have hlen : (c :: rest).take ((c :: rest).length - left.length) = source := by
          rw [← hs]
          simp
        simp only [hlen]
        cases name? <;> simp [Piece.source, ih, hs]

/-- The sources of the pieces make up the template. -/
theorem source_pieces (template : Text) : (pieces template).flatMap Piece.source = template :=
  source_piecesWithin _ _

end Template

end MockApi
