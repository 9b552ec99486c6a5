import MockApi.Definitions.Review
import MockApi.Endpoint.Selection
import MockApi.Proofs.Condition.Trimming
import MockApi.Proofs.Route.Substitution
import MockApi.Proofs.Template.Patching

/-!
# Reviews foretell requests

A review looks at conditions, templates and patterns one by one and never at a request. What it
finds is nevertheless what shows when requests arrive. Conditions are reviewed with the white space
around them and tested without it, which makes no difference to whether they compile. Blank
conditions play no part in the selection of a response. A placeholder for a path parameter is warned
of if no path that the pattern matches ever brings anything to put in its place.
-/

namespace MockApi

variable {stack : Stack}

/-! ## Conditions -/

namespace Condition

/-- A condition is broken: it is not blank, but the text that is tested on requests, which is the
condition without the white space around it, does not compile. -/
def IsBroken [Stack] (source : Text) : Prop :=
  isBlank source = false ∧ ∃ error, compile source.trim = .error error

theorem exists_compile_trim_eq_ok_iff {t : Text} :
    (∃ condition, compile t.trim = .ok condition) ↔ ∃ condition, compile t = .ok condition := by
  have hsource {t : Text} {condition : Condition} (h : compile t = .ok condition) :
      condition = ⟨t, condition.tree⟩ := by
    obtain ⟨rfl, -⟩ := compile_eq_ok_iff.mp h
    rfl
  constructor
  · rintro ⟨condition, h⟩
    rw [hsource h] at h
    exact ⟨_, compile_trim_eq_ok_iff.mp h⟩
  · rintro ⟨condition, h⟩
    rw [hsource h] at h
    exact ⟨_, compile_trim_eq_ok_iff.mpr h⟩

/-- It does not matter for a broken condition whether the white space around it is looked at. -/
theorem isBroken_iff {source : Text} :
    IsBroken source ↔ isBlank source = false ∧ ∃ error, compile source = .error error := by
  refine and_congr_right fun _ ↦ ?_
  have hiff := @exists_compile_trim_eq_ok_iff stack source
  cases htrim : compile source.trim with
  | ok condition =>
    obtain ⟨condition', h⟩ := hiff.mp ⟨condition, htrim⟩
    simp [h]
  | error error =>
    cases h : compile source with
    | ok condition' =>
      obtain ⟨condition, htrim'⟩ := hiff.mpr ⟨condition', h⟩
      rw [htrim] at htrim'
      cases htrim'
    | error error' => simp

end Condition

/-- Scenarios with blank conditions play no part in the selection of a response. -/
theorem Endpoint.firstHolding_filter (bindings : Bindings) (scenarios : List Scenario) :
    firstHolding bindings (scenarios.filter fun scenario ↦ !Condition.isBlank scenario.condition) =
      firstHolding bindings scenarios := by
  induction scenarios with
  | nil => rfl
  | cons scenario scenarios ih =>
    cases hblank : Condition.isBlank scenario.condition with
    | true =>
      rw [List.filter_cons_of_neg (by simp [hblank]), firstHolding,
        Condition.holds_of_isBlank hblank, ih]
      rfl
    | false => rw [List.filter_cons_of_pos (by simp [hblank]), firstHolding, firstHolding, ih]

/-! ## Placeholders for path parameters -/

namespace Template

/-- A placeholder is longer than its opening braces. -/
theorem two_lt_length_of_mem_pieces {part : BoundName} {name source template : Text}
    (h : Piece.entry part name source ∈ pieces template) : 2 < source.length := by
  have hgenuine := isGenuine_of_mem_pieces _ h
  generalize hpiece : Piece.entry part name source = piece at hgenuine
  cases hgenuine with
  | verbatim c => cases hpiece
  | placeholder hshape =>
    cases hshape with
    | whole => cases hpiece
    | entry =>
      cases hpiece
      simp only [List.length_cons, List.length_append]
      omega

end Template

/-- The data of a request that brings nothing but what was captured from its path. -/
def RequestContext.ofCaptures (captures : Table Text) : RequestContext :=
  ⟨.ofEntries (captures.map fun (name, t) ↦ (name, .text t)), .ofEntries [], .null⟩

namespace Endpoint

/-- Whatever path the pattern of an endpoint matches, a template is filled in from the captures, and
all placeholders for the path parameter are left as they stand. -/
def NeverFills [Stack] (endpoint : Endpoint) (template name : Text) : Prop :=
  ∀ path captures, Route.match? endpoint.path path = some captures → ∃ texts : List Text,
    List.Forall₂ (fun piece t ↦
      Template.renderPiece (.ofCaptures captures) false piece = .ok t ∧
        ∀ source, piece = .entry .path name source → t = source) (Template.pieces template) texts ∧
    Template.renderSinglePass template (.ofCaptures captures) = .ok texts.flatten

/-- The text that takes the place of a piece if nothing but captures is given. -/
def captured (captures : Table Text) : Piece → Text
  | .entry .path name source => (captures.get? name).getD source
  | piece => piece.source

theorem renderPiece_ofCaptures (captures : Table Text) (piece : Piece) :
    Template.renderPiece (.ofCaptures captures) false piece = .ok (captured captures piece) := by
  cases piece with
  | verbatim c => rfl
  | whole part source => cases part <;> rfl
  | entry part name source =>
    cases part with
    | path =>
      have hget : (Template.entriesOf ((RequestContext.ofCaptures captures).get .path)).get? name =
          (captures.get? name).map Value.text := Table.get?_map Value.text captures name
      rw [Template.renderPiece, hget, captured]
      cases captures.get? name with
      | none => rfl
      | some t => exact Value.toReplacement_text t
    | query | body => rfl

theorem renderSinglePass_ofCaptures (captures : Table Text) (template : Text) :
    Template.renderSinglePass template (.ofCaptures captures) =
      .ok ((Template.pieces template).map (captured captures)).flatten := by
  have hpieces : (Template.pieces template).mapM
      (Template.renderPiece (.ofCaptures captures) false) =
        .ok ((Template.pieces template).map (captured captures)) :=
    mapM_eq_ok_map fun piece _ ↦ renderPiece_ofCaptures captures piece
  have hbody : Value.truthy Value.null = .ok false := rfl
  rw [Template.renderSinglePass, RequestContext.ofCaptures, hbody, ok_bind]
  exact congrArg (fun outcome ↦ outcome >>= fun texts ↦ Except.ok texts.flatten) hpieces

/-- A name is left as it stands on every path if and only if the pattern does not capture it. -/
theorem neverFills_iff {endpoint : Endpoint} {template name : Text}
    (hname : name ∈ Template.namesOf .path template) :
    endpoint.NeverFills template name ↔ name ∉ endpoint.captureNames := by
  constructor
  · intro hnever hcaptured
    -- placeholders are longer than one code point, and what is captured need not be
    have hslash : '/'.toNat ∉ ([0x30] : Text) := by decide
    obtain ⟨path, captures, hmatch, hvalue⟩ :=
      Route.exists_match?_eq_some_of_value endpoint.path (List.cons_ne_nil _ _) hslash
    obtain ⟨texts, htexts, -⟩ := hnever path captures hmatch
    obtain ⟨source, hpiece⟩ := Template.mem_namesOf_iff.mp hname
    obtain ⟨t, -, hrender, hleft⟩ := exists_mem_of_forall₂_left htexts hpiece
    obtain ⟨captured, hget⟩ := Option.isSome_iff_exists.mp
      ((Route.isSome_get?_of_match? hmatch).mpr hcaptured)
    rw [renderPiece_ofCaptures, Endpoint.captured, hget, Except.ok.injEq] at hrender
    have hsource : source = [0x30] := by
      rw [← hleft source rfl, ← hrender]
      exact hvalue name captured hget
    have hlong := Template.two_lt_length_of_mem_pieces hpiece
    rw [hsource] at hlong
    exact absurd hlong (by decide)
  · intro huncaptured path captures hmatch
    refine ⟨_, ?_, renderSinglePass_ofCaptures captures template⟩
    rw [List.forall₂_map_right_iff, List.forall₂_same]
    refine fun piece _ ↦ ⟨renderPiece_ofCaptures captures piece, ?_⟩
    rintro source rfl
    have hnone : captures.get? name = none := by
      rw [← Option.not_isSome_iff_eq_none, Route.isSome_get?_of_match? hmatch]
      exact huncaptured
    rw [captured, hnone]
    rfl

/-! ## Issues -/

/-- The templates of an endpoint, each under the scenario that it belongs to; the default response
belongs to none. -/
def templates (endpoint : Endpoint) : List (Option Text × Text) :=
  (none, endpoint.response.template) ::
    endpoint.scenarios.map fun scenario ↦ (some scenario.name, scenario.template)

/-- An issue tells why the condition of a scenario does not compile. -/
def Explains [Stack] (endpoint : Endpoint) (scenario : Scenario) (issue : Issue) : Prop :=
  ∃ error, Condition.compile scenario.condition = .error error ∧
    issue = .brokenCondition endpoint.identity scenario.name scenario.condition error

theorem issues_eq (endpoint : Endpoint) :
    endpoint.issues = endpoint.scenarios.filterMap endpoint.conditionIssue? ++
      endpoint.templates.flatMap fun place ↦ endpoint.templateIssues place.1 place.2 := by
  rw [issues, templates, List.flatMap_cons, List.flatMap_map, List.append_assoc]

theorem isError_of_mem_templateIssues {endpoint : Endpoint} {issue : Issue}
    (h : issue ∈ endpoint.templates.flatMap fun place ↦
      endpoint.templateIssues place.1 place.2) : issue.isError = false := by
  obtain ⟨place, -, hissue⟩ := List.mem_flatMap.mp h
  obtain ⟨name, -, rfl⟩ := List.mem_map.mp hissue
  rfl

open Classical in
/-- The errors of an endpoint are those of its broken conditions, one for each. -/
theorem forall₂_errors_issues (endpoint : Endpoint) :
    List.Forall₂ (fun place issue ↦ Explains place.1 place.2 issue)
      ((endpoint.scenarios.filter fun scenario ↦ Condition.IsBroken scenario.condition).map
        (Prod.mk endpoint))
      (Definitions.errors endpoint.issues) := by
  have htemplates : (endpoint.templates.flatMap fun place ↦
      endpoint.templateIssues place.1 place.2).filter Issue.isError = [] :=
    List.filter_eq_nil_iff.mpr fun issue h ↦ by simp [isError_of_mem_templateIssues h]
  rw [Definitions.errors, issues_eq, List.filter_append, htemplates, List.append_nil]
  induction endpoint.scenarios with
  | nil => exact .nil
  | cons scenario scenarios ih =>
    rw [List.filter_cons, List.filterMap_cons, conditionIssue?]
    cases hblank : Condition.isBlank scenario.condition with
    | true =>
      have hsound : ¬Condition.IsBroken scenario.condition := by simp [Condition.IsBroken, hblank]
      simpa [hsound, Issue.isError] using ih
    | false =>
      cases hcompile : Condition.compile scenario.condition with
      | ok condition =>
        have hsound : ¬Condition.IsBroken scenario.condition := by
          simp [Condition.isBroken_iff, hcompile]
        simpa [hsound] using ih
      | error error =>
        have hbroken : Condition.IsBroken scenario.condition :=
          Condition.isBroken_iff.mpr ⟨hblank, error, hcompile⟩
        have hexplains : Explains endpoint scenario (.brokenCondition endpoint.identity
            scenario.name scenario.condition error) := ⟨error, hcompile, rfl⟩
        rw [if_pos (decide_eq_true hbroken), List.map_cons]
        exact List.Forall₂.cons hexplains ih

open Classical in
/-- The warnings of an endpoint are about its blank conditions, and about the placeholders of each
template that no path fills in. -/
theorem warnings_issues (endpoint : Endpoint) :
    Definitions.warnings endpoint.issues =
      ((endpoint.scenarios.filter fun scenario ↦ Condition.isBlank scenario.condition).map
        fun scenario ↦ .emptyCondition endpoint.identity scenario.name) ++
      endpoint.templates.flatMap fun place ↦
        ((Template.namesOf .path place.2).filter (endpoint.NeverFills place.2 ·)).map
          (.uncaptured endpoint.identity place.1) := by
  rw [Definitions.warnings, issues_eq, List.filter_append]
  congr 1
  · induction endpoint.scenarios with
    | nil => rfl
    | cons scenario scenarios ih =>
      rw [List.filter_cons, List.filterMap_cons, conditionIssue?]
      cases hblank : Condition.isBlank scenario.condition with
      | true => simpa [Issue.isError] using ih
      | false => cases hcompile : Condition.compile scenario.condition <;> simpa [Issue.isError]
  · rw [List.filter_eq_self.mpr fun issue h ↦ by simp [isError_of_mem_templateIssues h]]
    refine List.flatMap_congr fun place _ ↦ ?_
    rw [templateIssues]
    congr 1
    refine List.filter_congr fun name hname ↦ ?_
    simp [neverFills_iff hname]

end Endpoint

namespace Definitions

open Classical in
/-- **Reviews foretell requests.** There is one error for each scenario with a broken condition, in
order. The warnings are about the scenarios with blank conditions, and then about the names of path
parameters that a template mentions but that are left as they stand on every path which the pattern
matches. The scenarios with blank conditions can be left out without a change to any selection. -/
theorem review_foretells (endpoints : List Endpoint) :
    List.Forall₂ (fun place issue ↦ Endpoint.Explains place.1 place.2 issue)
      (endpoints.flatMap fun endpoint ↦
        (endpoint.scenarios.filter fun scenario ↦ Condition.IsBroken scenario.condition).map
          (Prod.mk endpoint))
      (errors (review endpoints)) ∧
    warnings (review endpoints) = endpoints.flatMap (fun endpoint ↦
      ((endpoint.scenarios.filter fun scenario ↦ Condition.isBlank scenario.condition).map
        fun scenario ↦ .emptyCondition endpoint.identity scenario.name) ++
      endpoint.templates.flatMap fun place ↦
        ((Template.namesOf .path place.2).filter (endpoint.NeverFills place.2 ·)).map
          (.uncaptured endpoint.identity place.1)) ∧
    (∀ template name, name ∈ Template.namesOf .path template ↔
      ∃ source, Piece.entry .path name source ∈ Template.pieces template) ∧
    ∀ (endpoint : Endpoint) (context : RequestContext), endpoint.select context =
      { endpoint with scenarios := endpoint.scenarios.filter fun scenario ↦
          !Condition.isBlank scenario.condition }.select context := by
  refine ⟨?_, ?_, fun template name ↦ Template.mem_namesOf_iff, fun endpoint context ↦ ?_⟩
  · rw [errors, review, List.filter_flatMap]
    induction endpoints with
    | nil => exact .nil
    | cons endpoint endpoints ih =>
      rw [List.flatMap_cons, List.flatMap_cons]
      exact List.rel_append endpoint.forall₂_errors_issues ih
  · rw [warnings, review, List.filter_flatMap]
    exact List.flatMap_congr fun endpoint _ ↦ endpoint.warnings_issues
  · rw [Endpoint.select, Endpoint.select, Endpoint.firstHolding_filter]

end Definitions

end MockApi
