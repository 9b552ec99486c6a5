import Mathlib.Data.List.DropRight
import MockApi.Route.Registry

/-!
# Registries and their history

A registry is told apart from an insertion-ordered map by nothing but times: what it holds follows
from the list of everything that was done with it since it was empty. Under an identity it holds the
endpoint registered last, unless that was taken out since, and its identities stand in the order in
which they were first registered since they were last taken out.

The history is read without the registry: it is cut behind the last operation that took an identity
out, and what is left tells the versions of the endpoint and the birth of the identity. The
induction adds one operation at the end of the history, and its invariant `Tracks` says that the
registry agrees with the history on both.
-/

namespace MockApi

/-- What an endpoint is apart from its times. -/
def Endpoint.content (endpoint : Endpoint) :
    Text × Method × Response × Table Text × List Scenario :=
  (endpoint.path, endpoint.method, endpoint.response, endpoint.headers, endpoint.scenarios)

namespace Registry

@[simp] theorem stamped_content (endpoint : Endpoint) (older? : Option Endpoint) (now : Text) :
    (stamped endpoint older? now).content = endpoint.content := rfl

/-! ## What a history says -/

/-- All that was done with a registry since it was empty. -/
abbrev History := List Operation

/-- The registry that a history leaves. -/
def after (history : History) : Registry := empty.performAll history

/-- Whether an operation takes out an identity. -/
def Operation.takesOut (identity : Text) : Operation → Bool
  | .remove other => other = identity
  | .clear => true
  | .save .. | .look _ => false

/-- The endpoint that an operation registers under an identity. -/
def Operation.registered? (identity : Text) : Operation → Option Endpoint
  | .save endpoint _ => if endpoint.identity = identity then some endpoint else none
  | .remove _ | .clear | .look _ => none

namespace History

/-- The end of a history behind the last operation that took out an identity. -/
def since (history : History) (identity : Text) : History :=
  history.rtakeWhile (!·.takesOut identity)

/-- The endpoints registered under an identity since it was last taken out, oldest first. -/
def versions (history : History) (identity : Text) : List Endpoint :=
  (history.since identity).filterMap (·.registered? identity)

/-- The number of operations before the one that first registered an identity since it was last
taken out. -/
def birth (history : History) (identity : Text) : Nat :=
  history.length - (history.since identity).length
    + (history.since identity).findIdx fun operation ↦ (operation.registered? identity).isSome

variable {history : History} {operation : Operation} {identity : Text}

theorem since_concat_of_takesOut (h : operation.takesOut identity = true) :
    History.since (history ++ [operation]) identity = [] := by
  rw [since, List.rtakeWhile_concat, h]
  rfl

theorem since_concat (h : operation.takesOut identity = false) :
    History.since (history ++ [operation]) identity = history.since identity ++ [operation] := by
  rw [since, List.rtakeWhile_concat, h]
  rfl

theorem versions_concat_of_takesOut (h : operation.takesOut identity = true) :
    History.versions (history ++ [operation]) identity = [] := by
  rw [versions, since_concat_of_takesOut h, List.filterMap_nil]

theorem versions_concat (h : operation.takesOut identity = false) :
    History.versions (history ++ [operation]) identity
      = history.versions identity ++ (operation.registered? identity).toList := by
  rw [versions, since_concat h, List.filterMap_append, ← versions]
  cases hregistered : operation.registered? identity <;> simp [hregistered]

theorem length_since_le (history : History) (identity : Text) :
    (history.since identity).length ≤ history.length :=
  (List.rtakeWhile_suffix _ history).length_le

/-- An identity with a version has its first registration behind the cut. -/
theorem findIdx_lt_of_versions (h : history.versions identity ≠ []) :
    ((history.since identity).findIdx fun operation ↦ (operation.registered? identity).isSome)
      < (history.since identity).length := by
  rw [List.findIdx_lt_length]
  by_contra hnone
  refine h (List.filterMap_eq_nil_iff.mpr fun operation hoperation ↦ ?_)
  by_contra hsome
  exact hnone ⟨operation, hoperation, Option.isSome_iff_ne_none.mpr hsome⟩

theorem birth_lt_length (h : history.versions identity ≠ []) :
    history.birth identity < history.length := by
  have hindex := findIdx_lt_of_versions h
  have hlength := length_since_le history identity
  unfold birth
  omega

/-- An identity that is there keeps its birth until it is taken out. -/
theorem birth_concat_of_versions (h : history.versions identity ≠ [])
    (hkept : operation.takesOut identity = false) :
    History.birth (history ++ [operation]) identity = history.birth identity := by
  have hindex := findIdx_lt_of_versions h
  unfold birth
  rw [since_concat hkept, List.findIdx_append, if_pos hindex, List.length_append,
    List.length_append, List.length_singleton, Nat.add_sub_add_right]

/-- An identity that is registered anew is born at the end of the history. -/
theorem birth_concat_of_new (h : history.versions identity = [])
    (hkept : operation.takesOut identity = false)
    (hnew : (operation.registered? identity).isSome = true) :
    History.birth (history ++ [operation]) identity = history.length := by
  have hnone : ∀ operation ∈ history.since identity, ¬(operation.registered? identity).isSome := by
    intro operation hoperation
    simpa using List.filterMap_eq_nil_iff.mp h operation hoperation
  have hindex : ¬((history.since identity).findIdx fun operation ↦
      (operation.registered? identity).isSome) < (history.since identity).length := by
    rw [List.findIdx_lt_length]
    rintro ⟨operation, hoperation, hsome⟩
    exact hnone operation hoperation hsome
  have hlength := length_since_le history identity
  unfold birth
  rw [since_concat hkept, List.findIdx_append, if_neg hindex, List.findIdx_cons, hnew,
    List.length_append, List.length_append, List.length_singleton, Nat.add_sub_add_right]
  simp only [cond_true]
  omega

end History

/-! ## One operation -/

/-- A registry holds what a history says. -/
structure Tracks (history : History) (registry : Registry) : Prop where
  /-- Under each identity there is the version registered last. -/
  latest : ∀ identity, (registry.get? identity).map Endpoint.content
    = (history.versions identity).getLast?.map Endpoint.content
  /-- The identities stand in the order of their births. -/
  order : registry.identities.Pairwise fun a b ↦ history.birth a < history.birth b

variable {history : History} {registry : Registry}

theorem Tracks.mem_identities_iff (h : Tracks history registry) {identity : Text} :
    identity ∈ registry.identities ↔ history.versions identity ≠ [] := by
  rw [← isSome_get?_iff, ← Option.isSome_map (f := Endpoint.content), h.latest,
    Option.isSome_map, List.getLast?_isSome]

/-- The identities are distinct. -/
theorem Tracks.nodup (h : Tracks history registry) : registry.identities.Nodup :=
  h.order.imp fun {a b} hab ↦ by
    rintro rfl
    exact Nat.lt_irrefl _ hab

/-- Identities that are not taken out keep their order. -/
theorem Tracks.order_concat (h : Tracks history registry) {operation : Operation}
    {identities : List Text} (hsub : identities.Sublist registry.identities)
    (hkept : ∀ identity ∈ identities, operation.takesOut identity = false) :
    identities.Pairwise fun a b ↦
      History.birth (history ++ [operation]) a < History.birth (history ++ [operation]) b := by
  refine (h.order.sublist hsub).imp_of_mem fun {a b} ha hb hab ↦ ?_
  rw [History.birth_concat_of_versions (h.mem_identities_iff.mp (hsub.subset ha)) (hkept a ha),
    History.birth_concat_of_versions (h.mem_identities_iff.mp (hsub.subset hb)) (hkept b hb)]
  exact hab

theorem Tracks.save (h : Tracks history registry) (endpoint : Endpoint) (now : Text) :
    Tracks (history ++ [.save endpoint now]) (registry.upsert endpoint now) := by
  refine ⟨fun identity ↦ ?_, ?_⟩
  · rw [get?_upsert, History.versions_concat rfl]
    by_cases hi : endpoint.identity = identity
    · simp [Operation.registered?, hi]
    · simpa [Operation.registered?, hi] using h.latest identity
  · have hold : registry.identities.Pairwise fun a b ↦
        History.birth (history ++ [.save endpoint now]) a
          < History.birth (history ++ [.save endpoint now]) b :=
      h.order_concat (List.Sublist.refl _) fun _ _ ↦ rfl
    rw [identities_upsert]
    split
    · exact hold
    · -- the new identity is the last one, and it is born after all others
      rename_i hnew
      rw [h.mem_identities_iff, not_not] at hnew
      refine List.pairwise_append.mpr ⟨hold, List.pairwise_singleton .., fun a ha b hb ↦ ?_⟩
      have hversions := h.mem_identities_iff.mp ha
      rw [List.mem_singleton.mp hb, History.birth_concat_of_versions hversions rfl,
        History.birth_concat_of_new hnew rfl (by simp [Operation.registered?])]
      exact History.birth_lt_length hversions

theorem Tracks.remove (h : Tracks history registry) (identity : Text) :
    Tracks (history ++ [.remove identity]) (registry.delete identity) := by
  refine ⟨fun other ↦ ?_, ?_⟩
  · rw [get?_delete]
    by_cases hi : identity = other
    · rw [if_pos hi, History.versions_concat_of_takesOut (by simpa [Operation.takesOut] using hi)]
      rfl
    · rw [if_neg hi, History.versions_concat (by simpa [Operation.takesOut] using hi), h.latest]
      simp [Operation.registered?]
  · rw [identities_delete]
    refine h.order_concat List.filter_sublist fun other hother ↦ ?_
    have hne : other ≠ identity := by simpa using (List.mem_filter.mp hother).2
    simpa [Operation.takesOut] using Ne.symm hne

theorem Tracks.clear : Tracks (history ++ [.clear]) empty := by
  refine ⟨fun identity ↦ ?_, List.Pairwise.nil⟩
  rw [History.versions_concat_of_takesOut rfl]
  rfl

theorem Tracks.look (h : Tracks history registry) (identity : Text) :
    Tracks (history ++ [.look identity]) registry := by
  refine ⟨fun other ↦ ?_, h.order_concat (List.Sublist.refl _) fun _ _ ↦ rfl⟩
  rw [History.versions_concat rfl, h.latest]
  simp [Operation.registered?]

/-- Every operation does to the registry what it does to the history. -/
theorem Tracks.perform (h : Tracks history registry) (operation : Operation) :
    Tracks (history ++ [operation]) (registry.perform operation).1 := by
  cases operation with
  | save endpoint now => exact h.save endpoint now
  | remove identity => exact h.remove identity
  | clear => exact .clear
  | look identity => exact h.look identity

/-! ## Whole histories -/

theorem after_concat (history : History) (operation : Operation) :
    after (history ++ [operation]) = ((after history).perform operation).1 := by
  rw [after, after, performAll, performAll, List.foldl_append, List.foldl_cons, List.foldl_nil]

theorem tracks_after (history : History) : Tracks history (after history) := by
  induction history using List.reverseRecOn with
  | nil => exact ⟨fun _ ↦ rfl, List.Pairwise.nil⟩
  | append_singleton history operation ih =>
    rw [after_concat]
    exact ih.perform operation

/-- An operation tells what a history calls for: whether its identity had no version, whether it had
one, how many identities had one, or the version registered last. -/
def Tells (history : History) : Operation → Answer → Prop
  | .save endpoint _, .saved stored created =>
    stored.content = endpoint.content ∧ (created = true ↔ history.versions endpoint.identity = [])
  | .remove identity, .removed found => found = true ↔ history.versions identity ≠ []
  | .clear, .cleared count => count = (after history).identities.length
  | .look identity, .looked endpoint? =>
    endpoint?.map Endpoint.content = (history.versions identity).getLast?.map Endpoint.content
  | _, _ => False

theorem tells_after (history : History) (operation : Operation) :
    Tells history operation ((after history).perform operation).2 := by
  have htracks := tracks_after history
  cases operation with
  | save endpoint now =>
    simp only [perform, save_eq, Tells, stamped_content, true_and, Bool.not_eq_true']
    rw [← not_iff_not, Bool.not_eq_false, contains_iff]
    exact htracks.mem_identities_iff
  | remove identity =>
    simp only [perform, remove_eq, Tells]
    rw [contains_iff]
    exact htracks.mem_identities_iff
  | clear => simp [perform, Registry.clear, Tells, size, identities]
  | look identity => exact htracks.latest identity

/-- **Registries are insertion-ordered maps.** After any history the identities are distinct, they
are those with a version, they stand in the order of their births, and each holds the version
registered last. Whatever is done next tells what the history calls for. -/
theorem after_refines (history : History) :
    (after history).identities.Nodup ∧
      (∀ identity, identity ∈ (after history).identities ↔ history.versions identity ≠ []) ∧
      ((after history).identities.Pairwise fun a b ↦ history.birth a < history.birth b) ∧
      (∀ identity, ((after history).get? identity).map Endpoint.content
        = (history.versions identity).getLast?.map Endpoint.content) ∧
      ∀ operation, Tells history operation ((after history).perform operation).2 := by
  have htracks := tracks_after history
  exact ⟨htracks.nodup, fun identity ↦ htracks.mem_identities_iff, htracks.order, htracks.latest,
    tells_after history⟩

end Registry

end MockApi
