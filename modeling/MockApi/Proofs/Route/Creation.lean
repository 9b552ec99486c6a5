import MockApi.Proofs.Route.History

/-!
# Times of creation

An endpoint in a registry carries two times, and a history says which. The time of creation is
settled by the registration with which the identity came in: it is what the endpoint brought along,
or else the time of that registration. Replacements bring times of their own and change nothing
about it. The time of the last update is that of the latest registration, whatever the endpoint
brought along.

A replacement keeps the time of creation only if it is not vacant. That is the invariant of the
induction: the time of creation that a first registration settles is never vacant, because the time
of a registration is not.
-/

namespace MockApi.Registry

/-! ## What a history says on times -/

/-- An endpoint that is registered at a time. -/
structure Registration where
  /-- The endpoint, with the times it brings along. -/
  endpoint : Endpoint
  /-- The time of the registration. -/
  time : Text

/-- The time of creation of an identity that comes in with a registration: what the endpoint gives
for it, or the time of the registration. -/
def Registration.creation (registration : Registration) : Value :=
  if registration.endpoint.createdAt.isVacant then .text registration.time
  else registration.endpoint.createdAt

/-- What an operation registers under an identity. -/
def Operation.registration? (identity : Text) : Operation → Option Registration
  | .save endpoint now => if endpoint.identity = identity then some ⟨endpoint, now⟩ else none
  | .remove _ | .clear | .look _ => none

/-- All registrations of a history happen at some time. -/
def History.IsTimed (history : History) : Prop :=
  ∀ endpoint now, .save endpoint now ∈ history → now ≠ []

/-- The registrations under an identity since it was last taken out, oldest first. -/
def History.registrations (history : History) (identity : Text) : List Registration :=
  (history.since identity).filterMap (·.registration? identity)

/-- What stands under an identity has the times that the registrations call for: of the first one
the time of creation, and of the last one the time of the update. -/
def IsDated (registrations : List Registration) : Option Endpoint → Prop
  | none => registrations = []
  | some stored =>
    (∃ first ∈ registrations.head?, stored.createdAt = first.creation) ∧
      ∃ last ∈ registrations.getLast?, stored.updatedAt = .text last.time

variable {history later : History} {operation : Operation} {identity now : Text}
  {registrations : List Registration}

theorem Registration.isVacant_creation {registration : Registration}
    (h : registration.time ≠ []) : registration.creation.isVacant = false := by
  unfold creation
  split
  · exact List.isEmpty_eq_false_iff.mpr h
  · rename_i hgiven
    exact Bool.not_eq_true _ ▸ hgiven

namespace History

theorem registrations_concat_of_takesOut (h : operation.takesOut identity = true) :
    History.registrations (history ++ [operation]) identity = [] := by
  rw [History.registrations, since_concat_of_takesOut h, List.filterMap_nil]

/-- Operations that do not take an identity out add their registrations to those before. -/
theorem since_append (h : ∀ operation ∈ later, operation.takesOut identity = false) :
    since (history ++ later) identity = history.since identity ++ later := by
  induction later using List.reverseRecOn with
  | nil => rw [List.append_nil, List.append_nil]
  | append_singleton later operation ih =>
    rw [← List.append_assoc, since_concat (h operation (by simp)),
      ih fun operation hmem ↦ h operation (by simp [hmem]), List.append_assoc]

theorem registrations_append (h : ∀ operation ∈ later, operation.takesOut identity = false) :
    History.registrations (history ++ later) identity =
      history.registrations identity ++ later.filterMap (·.registration? identity) := by
  rw [History.registrations, since_append h, List.filterMap_append, History.registrations]

/-- A registration stands in the history. -/
theorem mem_of_mem_registrations {registration : Registration}
    (h : registration ∈ history.registrations identity) :
    .save registration.endpoint registration.time ∈ history := by
  obtain ⟨operation, hmem, hoperation⟩ := List.mem_filterMap.mp h
  have hhistory : operation ∈ history :=
    (List.rtakeWhile_suffix _ history).subset hmem
  cases operation with
  | save endpoint now =>
    rw [Operation.registration?, Option.ite_none_right_eq_some] at hoperation
    obtain rfl := Option.some.inj hoperation.2
    exact hhistory
  | remove | clear | look => cases hoperation

end History

/-! ## One operation -/

/-- What is registered anew has the times of its registration. -/
theorem isDated_stamped_none (endpoint : Endpoint) (now : Text) :
    IsDated [⟨endpoint, now⟩] (some (stamped endpoint none now)) := by
  refine ⟨⟨_, rfl, ?_⟩, _, rfl, rfl⟩
  rw [Registration.creation, stamped]
  exact firstGiven.eq_2 ..

/-- What replaces an endpoint keeps its time of creation. -/
theorem IsDated.stamped {older : Endpoint} (h : IsDated registrations (some older))
    (htimes : ∀ registration ∈ registrations, registration.time ≠ []) (endpoint : Endpoint)
    (now : Text) :
    IsDated (registrations ++ [⟨endpoint, now⟩]) (some (stamped endpoint (some older) now)) := by
  obtain ⟨⟨first, hfirst, hcreated⟩, -⟩ := h
  have hgiven : older.createdAt.isVacant = false := by
    rw [hcreated]
    exact Registration.isVacant_creation (htimes first (List.mem_of_head? hfirst))
  have hkept : (Registry.stamped endpoint (some older) now).createdAt = older.createdAt := by
    rw [Registry.stamped]
    exact if_neg (by rw [hgiven]; exact Bool.false_ne_true)
  refine ⟨⟨first, ?_, hkept.trans hcreated⟩, _, List.getLast?_concat, rfl⟩
  exact List.mem_head?_append_of_mem_head? hfirst

/-- Every operation leaves the times that the history calls for. -/
theorem isDated_perform {registry : Registry} (htimed : history.IsTimed)
    (h : ∀ identity, IsDated (history.registrations identity) (registry.get? identity))
    (operation : Operation) (identity : Text) :
    IsDated (History.registrations (history ++ [operation]) identity)
      ((registry.perform operation).1.get? identity) := by
  have hkeep (hkept : operation.takesOut identity = false) :
      History.registrations (history ++ [operation]) identity =
        history.registrations identity ++ (operation.registration? identity).toList := by
    rw [History.registrations_append (List.forall_mem_singleton.mpr hkept)]
    cases hregistration : operation.registration? identity <;> simp [hregistration]
  cases operation with
  | save endpoint now =>
    change IsDated _ ((registry.upsert endpoint now).get? identity)
    rw [hkeep rfl, get?_upsert, Operation.registration?]
    by_cases hi : endpoint.identity = identity
    · have hbefore := h identity
      rw [if_pos hi, if_pos hi, hi]
      cases hget : registry.get? identity with
      | none =>
        rw [hget] at hbefore
        rw [show history.registrations identity = [] from hbefore]
        exact isDated_stamped_none endpoint now
      | some older =>
        rw [hget] at hbefore
        refine hbefore.stamped (fun registration hmem ↦ ?_) endpoint now
        exact htimed _ _ (History.mem_of_mem_registrations hmem)
    · rw [if_neg hi, if_neg hi, Option.toList_none, List.append_nil]
      exact h identity
  | remove other =>
    change IsDated _ ((registry.delete other).get? identity)
    rw [get?_delete]
    by_cases hi : other = identity
    · have htaken : (Operation.remove other).takesOut identity = true := decide_eq_true hi
      rw [if_pos hi, History.registrations_concat_of_takesOut htaken]
      rfl
    · rw [if_neg hi, hkeep (decide_eq_false hi), Operation.registration?, Option.toList_none,
        List.append_nil]
      exact h identity
  | clear =>
    rw [History.registrations_concat_of_takesOut rfl]
    rfl
  | look other =>
    rw [hkeep rfl, Operation.registration?, Option.toList_none, List.append_nil]
    exact h identity

/-! ## Whole histories -/

/-- After a history, what stands under an identity has the times that the history calls for. -/
theorem isDated_after (htimed : history.IsTimed) (identity : Text) :
    IsDated (history.registrations identity) ((after history).get? identity) := by
  induction history using List.reverseRecOn generalizing identity with
  | nil => rfl
  | append_singleton history operation ih =>
    have hbefore : History.IsTimed history :=
      fun endpoint now hmem ↦ htimed endpoint now (List.mem_append_left _ hmem)
    rw [after_concat]
    exact isDated_perform hbefore (ih hbefore) operation identity

/-- **The time of creation is permanent, the time of the update is current.** After any history an
identity has the time of creation that came with its first registration since it was last taken out,
and the time of its latest registration. Whatever is done then, as long as the identity is not taken
out it keeps its time of creation. -/
theorem creation_permanent {history later : History} (htimed : History.IsTimed (history ++ later))
    (identity : Text) :
    IsDated (history.registrations identity) ((after history).get? identity) ∧
      ∀ stored, (after history).get? identity = some stored →
        (∀ operation ∈ later, operation.takesOut identity = false) →
        ∃ kept, (after (history ++ later)).get? identity = some kept ∧
          kept.createdAt = stored.createdAt := by
  have hbefore : history.IsTimed :=
    fun endpoint now hmem ↦ htimed endpoint now (List.mem_append_left _ hmem)
  have hdated := isDated_after hbefore identity
  refine ⟨hdated, fun stored hstored hlater ↦ ?_⟩
  have hdated' := isDated_after htimed identity
  rw [hstored] at hdated
  rw [History.registrations_append hlater] at hdated'
  obtain ⟨⟨first, hfirst, hcreated⟩, -⟩ := hdated
  have hhead : first ∈ (history.registrations identity ++
      later.filterMap (·.registration? identity)).head? :=
    List.mem_head?_append_of_mem_head? hfirst
  cases hkept : (after (history ++ later)).get? identity with
  | none =>
    rw [hkept] at hdated'
    rw [show _ = [] from hdated'] at hhead
    cases hhead
  | some kept =>
    rw [hkept] at hdated'
    obtain ⟨⟨first', hfirst', hcreated'⟩, -⟩ := hdated'
    obtain rfl : first = first' := Option.mem_unique hhead hfirst'
    exact ⟨kept, rfl, hcreated'.trans hcreated.symm⟩

/-- A replacement that brings a time of creation along does not change it, and the time of the
update is that of the replacement. -/
theorem creation_permanent_replaced :
    let user (createdAt : Value) : Endpoint :=
      ⟨"/users", .get, .standard, [], [], createdAt, .text "2001"⟩
    let history : History := [.save (user (.text "2002")) "t1", .clear, .save (user .null) "t2"]
    let later : History := [.save (user (.text "2003")) "t3", .remove "/orders-GET"]
    History.IsTimed (history ++ later) ∧
      (∀ operation ∈ later, operation.takesOut "/users-GET" = false) ∧
      ∃ kept, (after (history ++ later)).get? "/users-GET" = some kept ∧
        kept.createdAt = .text "t2" ∧ kept.updatedAt = .text "t3" := by
  intro user history later
  have htimed : History.IsTimed (history ++ later) := by
    intro endpoint now hmem
    simp only [history, later, List.cons_append, List.nil_append, List.mem_cons,
      Operation.save.injEq, reduceCtorEq, List.not_mem_nil, or_false, false_or] at hmem
    obtain ⟨-, rfl⟩ | ⟨-, rfl⟩ | ⟨-, rfl⟩ := hmem <;> decide
  have hlater : ∀ operation ∈ later, operation.takesOut "/users-GET" = false := by
    simp only [later, List.forall_mem_cons, Operation.takesOut]
    decide
  obtain ⟨kept, hget, hcreated⟩ :=
    (creation_permanent htimed "/users-GET").2 _ rfl hlater
  refine ⟨htimed, hlater, kept, hget, hcreated, ?_⟩
  have hdated := isDated_after htimed "/users-GET"
  rw [hget] at hdated
  obtain ⟨last, hlast, hupdated⟩ := hdated.2
  obtain rfl := Option.some.inj hlast
  exact hupdated

end MockApi.Registry
