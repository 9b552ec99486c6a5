import MockApi.Proofs.Route.Matching

/-!
# Captures undo substitution

Putting values in the place of the captures of a pattern gives a path that the pattern matches, and
what is captured are these values. The other way round, putting what was captured from a path back
into the pattern gives the segments of the path again, as long as no capture is lost: a name that
occurs twice keeps its last capture only.

Both directions compare the segments one by one. That the segments of a filled pattern are the
filled segments of the pattern is where values have to be free of slashes and not empty.
-/

namespace MockApi.Route

/-! ## Names of captures -/

/-- The names under which a pattern captures, in order. -/
def captureNames (pattern : Text) : List Text := (segments pattern).filterMap captureName?

theorem captureName?_eq_none_iff {piece : Text} :
    captureName? piece = none ↔ piece.head? ≠ some ':'.toNat := by
  cases piece with
  | nil => simp [captureName?]
  | cons c name => simp [captureName?]

/-- Between slashes, whatever has a name is a segment. -/
theorem mem_captureNames_of_mem_splitOn {pattern piece name : Text}
    (hpiece : piece ∈ Text.splitOn '/'.toNat pattern) (hname : captureName? piece = some name) :
    name ∈ captureNames pattern := by
  have hne : piece ≠ [] := by
    rintro rfl
    cases hname
  exact List.mem_filterMap.mpr ⟨piece, List.mem_filter.mpr ⟨hpiece, by simpa using hne⟩, hname⟩

/-! ## Matches -/

variable {pattern path : Text}

/-- A pattern and a path agree: they have equally many segments, and every segment of the pattern
without a colon in front is met exactly. -/
def Agree (pattern path : Text) : Prop :=
  (segments pattern).length = (segments path).length ∧
    ∀ pair ∈ (segments pattern).zip (segments path),
      pair.1.head? ≠ some ':'.toNat → pair.1 = pair.2

instance (pattern path : Text) : Decidable (Agree pattern path) :=
  inferInstanceAs (Decidable (_ ∧ _))

/-- What the segments of a pattern capture from those of a path that stand at the same places. -/
def captured (pattern path : Text) : List (Text × Text) :=
  ((segments pattern).zip (segments path)).filterMap capture?

theorem agree_iff : Agree pattern path ↔
    List.Forall₂ Meets (segments pattern) (segments path) := by
  rw [Agree, List.forall₂_iff_zip]
  refine and_congr_right fun _ ↦ ⟨fun h p s hps hname ↦ ?_, fun h pair hpair hhead ↦ ?_⟩
  · exact h (p, s) hps (captureName?_eq_none_iff.mp hname)
  · exact h hpair (captureName?_eq_none_iff.mpr hhead)

/-- A pattern that agrees with a path captures the segments that stand where it captures, and a
pattern that does not agree captures nothing. -/
theorem match?_eq_ite (pattern path : Text) : match? pattern path =
    if Agree pattern path then some (Table.ofList (captured pattern path)) else none := by
  by_cases h : Agree pattern path
  · rw [if_pos h, match?, matchSegments?_eq_some_iff.mpr ⟨agree_iff.mp h, rfl⟩]
    rfl
  · rw [if_neg h, ← Option.not_isSome_iff_eq_none, isSome_match?_iff, ← agree_iff]
    exact h

theorem match?_eq_some_iff {captures : Table Text} : match? pattern path = some captures ↔
    Agree pattern path ∧ captures = Table.ofList (captured pattern path) := by
  rw [match?_eq_ite, Option.ite_none_right_eq_some, Option.some.injEq, eq_comm (b := captures)]

/-- Every match captures under the names of the pattern, in order. -/
theorem names_captured (h : Agree pattern path) :
    Table.names (captured pattern path) = captureNames pattern :=
  map_fst_of_matchSegments? (matchSegments?_eq_some_iff.mpr ⟨agree_iff.mp h, rfl⟩)

/-! ## Substitution -/

/-- A piece of a pattern with the value of its name in its place, if it captures. -/
def fillPiece (value : Text → Text) (piece : Text) : Text := (captureName? piece).elim piece value

/-- The path that comes of a pattern if every capture is replaced by the value of its name. -/
def substitute (value : Text → Text) (pattern : Text) : Text :=
  Text.join ['/'.toNat] ((Text.splitOn '/'.toNat pattern).map (fillPiece value))

theorem fillPiece_of_name {piece name : Text} (h : captureName? piece = some name)
    (value : Text → Text) : fillPiece value piece = value name := by
  rw [fillPiece, h]
  rfl

theorem fillPiece_of_none {piece : Text} (h : captureName? piece = none) (value : Text → Text) :
    fillPiece value piece = piece := by
  rw [fillPiece, h]
  rfl

/-- Values can stand for segments: none is empty, and none holds a slash. -/
def StandForSegments (value : Text → Text) (names : List Text) : Prop :=
  ∀ name ∈ names, value name ≠ [] ∧ '/'.toNat ∉ value name

/-- The segments of a filled pattern are the filled segments of the pattern. -/
theorem segments_substitute {value : Text → Text}
    (h : StandForSegments value (captureNames pattern)) :
    segments (substitute value pattern) = (segments pattern).map (fillPiece value) := by
  have hpiece {piece : Text} (hmem : piece ∈ Text.splitOn '/'.toNat pattern) :
      '/'.toNat ∉ fillPiece value piece ∧ (fillPiece value piece = [] ↔ piece = []) := by
    cases hname : captureName? piece with
    | none =>
      rw [fillPiece_of_none hname]
      exact ⟨Text.notMem_of_mem_splitOn hmem, Iff.rfl⟩
    | some name =>
      obtain ⟨hne, hslash⟩ := h name (mem_captureNames_of_mem_splitOn hmem hname)
      rw [fillPiece_of_name hname]
      refine ⟨hslash, iff_of_false hne ?_⟩
      rintro rfl
      cases hname
  have hslash : ∀ piece ∈ (Text.splitOn '/'.toNat pattern).map (fillPiece value),
      '/'.toNat ∉ piece := by
    intro filled hfilled
    obtain ⟨piece, hmem, rfl⟩ := List.mem_map.mp hfilled
    exact (hpiece hmem).1
  have hne : (Text.splitOn '/'.toNat pattern).map (fillPiece value) ≠ [] :=
    List.map_eq_nil_iff.not.mpr (Text.splitOn_ne_nil _ _)
  rw [segments, substitute, Text.splitOn_join hne hslash, List.filter_map, segments]
  congr 1
  refine List.filter_congr fun piece hmem ↦ ?_
  simpa using (hpiece hmem).2

/-- Segments match what they are filled in to, and the values are captured. -/
theorem matchSegments?_map_fillPiece (value : Text → Text) (ps : List Text) :
    matchSegments? ps (ps.map (fillPiece value)) =
      some ((ps.filterMap captureName?).map fun name ↦ (name, value name)) := by
  induction ps with
  | nil => rfl
  | cons p ps ih =>
    rw [List.map_cons, matchSegments?, ih]
    cases hname : captureName? p with
    | none => simp [hname, fillPiece_of_none hname]
    | some name => simp [hname, fillPiece_of_name hname]

/-- A pattern matches what it is filled in to, whatever its names are. -/
theorem match?_substitute {value : Text → Text}
    (h : StandForSegments value (captureNames pattern)) :
    match? pattern (substitute value pattern) =
      some (Table.ofList ((captureNames pattern).map fun name ↦ (name, value name))) := by
  rw [match?, segments_substitute h, matchSegments?_map_fillPiece]
  rfl

/-- A pattern matches a path from which it captures the same text everywhere. -/
theorem exists_match?_eq_some_of_value (pattern : Text) {value : Text} (hne : value ≠ [])
    (hslash : '/'.toNat ∉ value) :
    ∃ path captures, match? pattern path = some captures ∧
      ∀ name t, captures.get? name = some t → t = value := by
  have hvalue : StandForSegments (fun _ ↦ value) (captureNames pattern) :=
    fun _ _ ↦ ⟨hne, hslash⟩
  refine ⟨_, _, match?_substitute hvalue, fun name t ht ↦ ?_⟩
  have hmem := Table.mem_of_mem_ofList (Table.mem_of_get?_eq_some ht)
  obtain ⟨_, -, heq⟩ := List.mem_map.mp hmem
  exact (congrArg Prod.snd heq).symm

/-- The values that were captured; a name under which nothing was captured has an empty one. -/
def valueOf (captures : Table Text) (name : Text) : Text := (captures.get? name).getD []

/-- What was captured can stand for segments. -/
theorem standForSegments_valueOf {captures : Table Text} (h : match? pattern path = some captures) :
    StandForSegments (valueOf captures) (captureNames pattern) := by
  intro name hname
  obtain ⟨t, ht⟩ := Option.isSome_iff_exists.mp ((isSome_get?_of_match? h).mpr hname)
  obtain ⟨-, rfl⟩ := match?_eq_some_iff.mp h
  have hmem := Table.mem_of_mem_ofList (Table.mem_of_get?_eq_some ht)
  obtain ⟨⟨p, s⟩, hzip, hcapture⟩ := List.mem_filterMap.mp hmem
  obtain ⟨_, -, heq⟩ := Option.map_eq_some_iff.mp hcapture
  cases heq
  rw [valueOf, ht]
  exact of_mem_segments (List.of_mem_zip hzip).2

/-- Filled segments of a pattern are segments that it matches if they agree in every capture. -/
theorem map_fillPiece_eq_iff {value : Text → Text} {ps ss : List Text}
    {written : List (Text × Text)} (h : matchSegments? ps ss = some written) :
    ps.map (fillPiece value) = ss ↔ ∀ entry ∈ written, value entry.1 = entry.2 := by
  induction ps generalizing ss written with
  | nil =>
    cases ss with
    | nil =>
      cases h
      simp
    | cons s ss => cases h
  | cons p ps ih =>
    cases ss with
    | nil => cases h
    | cons s ss =>
      rw [matchSegments?] at h
      rw [List.map_cons, List.cons.injEq]
      cases hname : captureName? p with
      | none =>
        simp only [hname, Option.ite_none_right_eq_some] at h
        obtain ⟨rfl, h⟩ := h
        rw [fillPiece_of_none hname, ih h]
        exact and_iff_right rfl
      | some name =>
        simp only [hname, Option.map_eq_some_iff] at h
        obtain ⟨rest, hrest, rfl⟩ := h
        rw [fillPiece_of_name hname, ih hrest, List.forall_mem_cons]

/-- **Captures put back.** Putting what was captured from a path into the pattern gives the segments
of the path if and only if no capture was lost to a later one under the same name. -/
theorem segments_substitute_valueOf_iff {captures : Table Text}
    (h : match? pattern path = some captures) :
    segments (substitute (valueOf captures) pattern) = segments path ↔
      ∀ entry ∈ captured pattern path, captures.get? entry.1 = some entry.2 := by
  obtain ⟨hagree, -⟩ := match?_eq_some_iff.mp h
  have hsegments := matchSegments?_eq_some_iff.mpr ⟨agree_iff.mp hagree, rfl⟩
  rw [segments_substitute (standForSegments_valueOf h), map_fillPiece_eq_iff hsegments]
  refine forall₂_congr fun entry hentry ↦ ?_
  have hname : entry.1 ∈ captureNames pattern := by
    rw [← names_captured hagree]
    exact List.mem_map_of_mem hentry
  obtain ⟨t, ht⟩ := Option.isSome_iff_exists.mp ((isSome_get?_of_match? h).mpr hname)
  rw [valueOf, ht, Option.getD_some, Option.some.injEq]

/-- **Captures undo substitution.** A pattern matches a path if and only if both have equally many
segments and every segment of the pattern without a colon in front is the segment of the path at its
place. Then it captures the segments at the other places, and if there is no match, then there is
nothing that was captured. If the names of a pattern are distinct, then it captures from the path
that it is filled in to just the values that were filled in; and filled in with what was captured
from a path, it has the segments of that path. -/
theorem match?_inversion (pattern : Text) :
    (∀ path, match? pattern path =
      if Agree pattern path then some (Table.ofList (captured pattern path)) else none) ∧
    ((captureNames pattern).Nodup →
      (∀ value : Text → Text, StandForSegments value (captureNames pattern) →
        match? pattern (substitute value pattern) =
          some ((captureNames pattern).map fun name ↦ (name, value name))) ∧
      ∀ path captures, match? pattern path = some captures →
        segments (substitute (valueOf captures) pattern) = segments path) := by
  refine ⟨match?_eq_ite pattern, fun hnames ↦ ⟨fun value hvalue ↦ ?_, fun path captures h ↦ ?_⟩⟩
  · have hdistinct : (Table.names
        ((captureNames pattern).map fun name ↦ (name, value name))).Nodup := by
      rw [Table.names, List.map_map]
      change ((captureNames pattern).map id).Nodup
      rwa [List.map_id]
    rw [match?_substitute hvalue, Table.ofList_eq_self hdistinct]
  · obtain ⟨hagree, rfl⟩ := match?_eq_some_iff.mp h
    have hdistinct : (Table.names (captured pattern path)).Nodup := by
      rwa [names_captured hagree]
    rw [segments_substitute_valueOf_iff h, Table.ofList_eq_self hdistinct]
    exact fun entry hentry ↦ Table.get?_of_mem hdistinct hentry

/-- The order of a user is captured from its path and gives the path back. -/
theorem match?_inversion_orders :
    let pattern : Text := "/users/:user/orders/:order"
    let value (name : Text) : Text := if name = "user" then "7" else "a:b?"
    let captures : Table Text := [("user", "7"), ("order", "a:b?")]
    (captureNames pattern).Nodup ∧ StandForSegments value (captureNames pattern) ∧
      match? pattern "/users/7/orders/a:b?" = some captures ∧
      match? pattern "//users/7/orders/a:b?/" = some captures ∧
      segments (substitute (valueOf captures) pattern) = segments "//users/7/orders/a:b?/" := by
  intro pattern value captures
  have hnames : (captureNames pattern).Nodup := by decide
  have hvalue : StandForSegments value (captureNames pattern) := by
    unfold StandForSegments
    decide
  obtain ⟨hall, hinverse⟩ := match?_inversion pattern
  obtain ⟨hsubstitute, hback⟩ := hinverse hnames
  have hpath : substitute value pattern = "/users/7/orders/a:b?" := rfl
  have hmatch : match? pattern "/users/7/orders/a:b?" = some captures := by
    rw [← hpath, hsubstitute value hvalue]
    rfl
  have hslashes : match? pattern "//users/7/orders/a:b?/" = some captures := by
    rw [hall]
    rfl
  exact ⟨hnames, hvalue, hmatch, hslashes, hback _ _ hslashes⟩

/-- Of two captures under one name the first is lost. -/
example :
    let captures : Table Text := [("id", "2")]
    match? "/:id/:id" "/1/2" = some captures ∧
      substitute (valueOf captures) "/:id/:id" = "/2/2" := by
  decide

end MockApi.Route
