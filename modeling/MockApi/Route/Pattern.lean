import MockApi.Table

/-!
# Path patterns

A path is a sequence of segments between slashes; empty segments do not count. A pattern is a path
in which segments with a colon in front capture a segment of a request under their name, and all
others have to be met exactly. A name that occurs twice keeps its last capture.
-/

namespace MockApi.Route

/-- The segments of a path. -/
def segments (path : Text) : List Text := (Text.splitOn '/'.toNat path).filter (· ≠ [])

/-- The name of a capturing segment. -/
def captureName? : Text → Option Text
  | c :: name => if c = ':'.toNat then some name else none
  | [] => none

/-- What the segments of a pattern capture from the segments of a path, in order, if they match. -/
def matchSegments? : List Text → List Text → Option (List (Text × Text))
  | [], [] => some []
  | p :: ps, s :: ss =>
    match captureName? p with
    | some name => (matchSegments? ps ss).map ((name, s) :: ·)
    | none => if p = s then matchSegments? ps ss else none
  | _, _ => none

/-- What a pattern captures from a path, if they match. -/
def match? (pattern path : Text) : Option (Table Text) :=
  (matchSegments? (segments pattern) (segments path)).map Table.ofList

/-- A segment is not empty and holds no slash. -/
theorem of_mem_segments {path s : Text} (h : s ∈ segments path) : s ≠ [] ∧ '/'.toNat ∉ s := by
  obtain ⟨hs, hne⟩ := List.mem_filter.mp h
  exact ⟨by simpa using hne, Text.notMem_of_mem_splitOn hs⟩

end MockApi.Route
