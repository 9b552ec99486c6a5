import Mathlib.Data.List.Forall2
import MockApi.Proofs.Table
import MockApi.Proofs.Text.Span
import MockApi.Route.Pattern

/-!
# What patterns match

A pattern matches the paths that meet it segment by segment, and what it captures from them are the
segments that stand where the pattern captures: every match captures under the names of the pattern
and under no others.

A pattern is filled in by putting texts for its captures and keeping everything else as it is, empty
pieces between slashes included. It matches all paths that it is filled in to.
-/

namespace MockApi

/-! ## Lists side by side -/

section Forall₂

variable {α β : Type} {r : α → β → Prop} {xs : List α} {ys : List β}

theorem exists_mem_of_forall₂_left (h : List.Forall₂ r xs ys) {x : α} (hx : x ∈ xs) :
    ∃ y ∈ ys, r x y := by
  induction h with
  | nil => cases hx
  | cons hr _ ih =>
    rcases List.mem_cons.mp hx with rfl | hx
    · exact ⟨_, List.mem_cons_self, hr⟩
    · obtain ⟨y, hy, hr⟩ := ih hx
      exact ⟨y, List.mem_cons_of_mem _ hy, hr⟩

theorem exists_mem_of_forall₂_right (h : List.Forall₂ r xs ys) {y : β} (hy : y ∈ ys) :
    ∃ x ∈ xs, r x y :=
  exists_mem_of_forall₂_left h.flip hy

end Forall₂

namespace Route

/-! ## Segments -/

theorem segments_slash_cons (t : Text) : segments ('/'.toNat :: t) = segments t := by
  simp [segments, Text.splitOn]

theorem segments_append (t rest : Text) :
    segments (t ++ '/'.toNat :: rest) = segments t ++ segments rest := by
  rw [segments, Text.splitOn_append, List.filter_append, segments, segments]

theorem segments_of_notMem {w : Text} (hne : w ≠ []) (hw : '/'.toNat ∉ w) : segments w = [w] := by
  rw [segments, Text.splitOn_of_notMem hw, List.filter_cons_of_pos (by simpa using hne)]
  rfl

theorem segments_append_slash {w : Text} (hne : w ≠ []) (hw : '/'.toNat ∉ w) (t : Text) :
    segments (w ++ '/'.toNat :: t) = w :: segments t := by
  rw [segments_append, segments_of_notMem hne hw, List.singleton_append]

/-- Every code point other than a slash is in a segment. -/
theorem exists_mem_segments_iff {t : Text} {c : Nat} (hc : c ≠ '/'.toNat) :
    (∃ s ∈ segments t, c ∈ s) ↔ c ∈ t := by
  have hjoin : c ∈ Text.join ['/'.toNat] (Text.splitOn '/'.toNat t) ↔
      ∃ s ∈ Text.splitOn '/'.toNat t, c ∈ s := Text.mem_join_iff hc
  rw [Text.join_splitOn] at hjoin
  rw [hjoin]
  constructor
  · rintro ⟨s, hs, hmem⟩
    exact ⟨s, List.mem_of_mem_filter hs, hmem⟩
  · rintro ⟨s, hs, hmem⟩
    exact ⟨s, List.mem_filter.mpr ⟨hs, by simpa using List.ne_nil_of_mem hmem⟩, hmem⟩

/-- Taking code points other than slashes out of a path takes them out of its segments, which may
leave nothing of a segment. -/
theorem segments_filter {keep : Nat → Bool} (hslash : keep '/'.toNat = true) (t : Text) :
    segments (t.filter keep) = ((segments t).map (List.filter keep)).filter (· ≠ []) := by
  rw [segments, segments, Text.splitOn_filter hslash, List.filter_map, List.filter_map,
    List.filter_filter]
  congr 1
  refine List.filter_congr fun s _ ↦ ?_
  cases s with
  | nil => rfl
  | cons c s => simp

/-! ## Matches -/

/-- A segment of a path meets a segment of a pattern: it is captured or the same. -/
def Meets (p s : Text) : Prop := captureName? p = none → p = s

/-- What a segment of a pattern captures from a segment of a path. -/
def capture? (pair : Text × Text) : Option (Text × Text) :=
  (captureName? pair.1).map fun name ↦ (name, pair.2)

/-- Segments match if they meet one by one, and the captures are those of the single segments. -/
theorem matchSegments?_eq_some_iff {ps ss : List Text} {captures : List (Text × Text)} :
    matchSegments? ps ss = some captures ↔
      List.Forall₂ Meets ps ss ∧ captures = (ps.zip ss).filterMap capture? := by
  induction ps generalizing ss captures with
  | nil =>
    cases ss with
    | nil => simp [matchSegments?, eq_comm]
    | cons s ss => simp [matchSegments?]
  | cons p ps ih =>
    cases ss with
    | nil => simp [matchSegments?]
    | cons s ss =>
      rw [matchSegments?, List.forall₂_cons, List.zip_cons_cons, List.filterMap_cons]
      cases hname : captureName? p with
      | some name =>
        have hmeets : Meets p s := fun h ↦ by rw [hname] at h; cases h
        have hcapture : capture? (p, s) = some (name, s) := by simp [capture?, hname]
        simp only [hmeets, true_and, hcapture, Option.map_eq_some_iff, ih]
        constructor
        · rintro ⟨_, ⟨hall, rfl⟩, rfl⟩
          exact ⟨hall, rfl⟩
        · rintro ⟨hall, rfl⟩
          exact ⟨_, ⟨hall, rfl⟩, rfl⟩
      | none =>
        have hmeets : Meets p s ↔ p = s := ⟨fun h ↦ h hname, fun h _ ↦ h⟩
        have hcapture : capture? (p, s) = none := by simp [capture?, hname]
        simp only [hmeets, hcapture]
        by_cases hps : p = s
        · rw [if_pos hps, ih]
          simp [hps]
        · simp [hps]

/-- Every match captures under the names of the pattern. -/
theorem map_fst_of_matchSegments? {ps ss : List Text} {captures : List (Text × Text)}
    (h : matchSegments? ps ss = some captures) :
    captures.map Prod.fst = ps.filterMap captureName? := by
  obtain ⟨hall, rfl⟩ := matchSegments?_eq_some_iff.mp h
  clear h
  induction hall with
  | nil => rfl
  | @cons p s ps ss hmeets hall ih =>
    rw [List.zip_cons_cons, List.filterMap_cons, List.filterMap_cons]
    cases hname : captureName? p <;> simp [capture?, hname, ih]

/-- **What matches capture.** Whatever the path is, something is captured under a name if and only
if it is the name of a capturing segment of the pattern. -/
theorem isSome_get?_of_match? {pattern path : Text} {captures : Table Text}
    (h : match? pattern path = some captures) {name : Text} :
    (captures.get? name).isSome = true ↔
      name ∈ (segments pattern).filterMap captureName? := by
  obtain ⟨written, hmatch, rfl⟩ := Option.map_eq_some_iff.mp h
  rw [Table.isSome_get?_ofList_iff, map_fst_of_matchSegments? hmatch]

theorem isSome_match?_iff {pattern path : Text} : (match? pattern path).isSome = true ↔
    List.Forall₂ Meets (segments pattern) (segments path) := by
  rw [match?, Option.isSome_map, Option.isSome_iff_exists]
  constructor
  · rintro ⟨captures, h⟩
    exact (matchSegments?_eq_some_iff.mp h).1
  · intro h
    exact ⟨_, matchSegments?_eq_some_iff.mpr ⟨h, rfl⟩⟩

/-- A path matches itself as a pattern. -/
theorem isSome_match?_self (path : Text) : (match? path path).isSome = true :=
  isSome_match?_iff.mpr (List.forall₂_same.mpr fun _ _ _ ↦ rfl)

/-- A pattern matches no path with more or fewer segments. -/
theorem match?_eq_none_of_length_ne {pattern path : Text}
    (h : (segments pattern).length ≠ (segments path).length) : match? pattern path = none := by
  rw [← Option.not_isSome_iff_eq_none, isSome_match?_iff]
  exact fun hmeets ↦ h hmeets.length_eq

/-! ## Filled patterns -/

/-- The code points that separate the parts of a URL or mark a capture. -/
def marks : List Nat := ['/'.toNat, '?'.toNat, '#'.toNat, ':'.toNat]

/-- A text stands for a piece of a pattern between slashes: any text without marks for a capture,
and nothing but the piece itself for another piece. -/
def Fills (piece filling : Text) : Prop :=
  if (captureName? piece).isSome = true then filling ≠ [] ∧ ∀ c ∈ filling, c ∉ marks
  else filling = piece

instance (piece filling : Text) : Decidable (Fills piece filling) :=
  inferInstanceAs (Decidable (if (captureName? piece).isSome = true then
    filling ≠ [] ∧ ∀ c ∈ filling, c ∉ marks else filling = piece))

/-- A path is a pattern with its captures filled in. -/
def IsFilled (pattern path : Text) : Prop :=
  ∃ fillings, List.Forall₂ Fills (Text.splitOn '/'.toNat pattern) fillings ∧
    path = Text.join ['/'.toNat] fillings

theorem Fills.meets {piece filling : Text} (h : Fills piece filling) : Meets piece filling := by
  intro hnone
  rw [Fills, if_neg (by simp [hnone])] at h
  exact h.symm

theorem Fills.eq_nil_iff {piece filling : Text} (h : Fills piece filling) :
    filling = [] ↔ piece = [] := by
  unfold Fills at h
  split at h
  · rename_i hname
    refine iff_of_false h.1 ?_
    rintro rfl
    cases hname
  · rw [h]

/-- A piece that fills in holds a mark only if it is kept. -/
theorem Fills.eq_of_mem {piece filling : Text} (h : Fills piece filling) {c : Nat}
    (hc : c ∈ marks) (hmem : c ∈ filling) : filling = piece ∧ captureName? piece = none := by
  unfold Fills at h
  split at h
  · exact absurd hc (h.2 c hmem)
  · rename_i hname
    exact ⟨h, Option.not_isSome_iff_eq_none.mp hname⟩

namespace IsFilled

variable {pattern path : Text}

/-- The segments of a filled pattern are the fillings of its segments. -/
theorem forall₂_segments (h : IsFilled pattern path) :
    List.Forall₂ Fills (segments pattern) (segments path) := by
  obtain ⟨fillings, hall, rfl⟩ := h
  have hne : fillings ≠ [] := by
    rintro rfl
    exact Text.splitOn_ne_nil '/'.toNat pattern (List.forall₂_nil_right_iff.mp hall)
  have hslash : ∀ s ∈ fillings, '/'.toNat ∉ s := by
    intro s hs hmem
    obtain ⟨p, hp, hps⟩ := exists_mem_of_forall₂_right hall hs
    obtain ⟨rfl, -⟩ := hps.eq_of_mem (by decide) hmem
    exact Text.notMem_of_mem_splitOn hp hmem
  rw [segments, segments, Text.splitOn_join hne hslash]
  refine List.rel_filter (fun p s hps ↦ ?_) hall
  simpa using hps.eq_nil_iff.symm.not

end IsFilled

end Route

end MockApi
