import MockApi.Proofs.Definitions.Document
import MockApi.Proofs.Endpoint.RoundTrip
import MockApi.Proofs.Route.Batch

/-!
# Export and import

A registry is exported as the list of the payloads of its endpoints. Read again, the list gives the
same endpoints, and registering these one after another makes the same registry, but for the times
of the last updates.

What carries this is an invariant of registries: their endpoints are in the fixed form of what comes
out of payloads, and each has a time of creation, so nothing is made up for it when it is registered
again.
-/

namespace MockApi

variable {stack : Stack}

/-- An endpoint as it stands in a registry. -/
structure Endpoint.IsStored (endpoint : Endpoint) : Prop extends endpoint.WellFormed where
  /-- The time of creation is given. -/
  created : endpoint.createdAt.isVacant = false

namespace Registry

/-! ## What registries hold -/

/-- An operation that registers, if anything, an endpoint that some payload describes, at some
time. -/
def Operation.IsAccepted [Stack] : Operation → Prop
  | .save endpoint now => (∃ payload, Endpoint.ofPayload payload = .ok endpoint) ∧ now ≠ []
  | .remove _ | .clear | .look _ => True

variable {registry : Registry} {endpoint : Endpoint}

/-- Registering leaves the fixed form of an endpoint alone. -/
theorem wellFormed_stamped (h : endpoint.WellFormed) (older? : Option Endpoint) (now : Text) :
    (stamped endpoint older? now).WellFormed :=
  ⟨h.slash, h.trimmed, h.status, h.scenarios⟩

theorem isStored_stamped (h : endpoint.WellFormed) (older? : Option Endpoint) {now : Text}
    (hnow : now ≠ []) : (stamped endpoint older? now).IsStored where
  toWellFormed := wellFormed_stamped h older? now
  created := isVacant_createdAt_stamped endpoint older? hnow

/-- An accepted operation keeps what is stored in order. -/
theorem isStored_perform (h : ∀ endpoint ∈ registry.endpoints, endpoint.IsStored)
    {operation : Operation} (haccepted : operation.IsAccepted) :
    ∀ endpoint ∈ (registry.perform operation).1.endpoints, endpoint.IsStored := by
  cases operation with
  | save endpoint now =>
    obtain ⟨⟨payload, hpayload⟩, hnow⟩ := haccepted
    intro other hother
    rcases mem_saveIn hother with hother | ⟨older?, rfl⟩
    · exact h other hother
    · exact isStored_stamped (Endpoint.wellFormed_of_ofPayload hpayload) older? hnow
  | remove identity => exact fun other hother ↦ h other (List.mem_of_mem_filter hother)
  | clear => exact List.forall_mem_nil _
  | look identity => exact h

theorem isStored_after {history : History} (h : ∀ operation ∈ history, operation.IsAccepted) :
    ∀ endpoint ∈ (after history).endpoints, endpoint.IsStored := by
  induction history using List.reverseRecOn with
  | nil => exact List.forall_mem_nil _
  | append_singleton history operation ih =>
    obtain ⟨hhistory, hoperation⟩ := List.forall_mem_append.mp h
    rw [after_concat]
    exact isStored_perform (ih hhistory) (hoperation operation List.mem_cons_self)

/-! ## There and back -/

/-- The document that holds the endpoints of a registry. -/
def exported (registry : Registry) : Value :=
  .ofEntries [("endpoints", .ofItems (registry.endpoints.map Endpoint.toPayload))]

/-- Stored endpoints are read as they are written. -/
theorem ofPayloads_toPayload {endpoints : List Endpoint}
    (h : ∀ endpoint ∈ endpoints, endpoint.IsStored) (index : Nat) :
    Definitions.ofPayloads index (endpoints.map Endpoint.toPayload) = .ok endpoints := by
  rw [Definitions.ofPayloads_eq_ok_iff, List.map_map]
  exact List.map_congr_left fun endpoint hendpoint ↦ (h endpoint hendpoint).ofPayload_toPayload

/-- Only the time of the last update changes when a stored endpoint is registered afresh. -/
theorem stamped_of_isStored (h : endpoint.IsStored) (now : Text) :
    stamped endpoint none now = { endpoint with updatedAt := .text now } := by
  have hcreated : firstGiven [endpoint.createdAt] (.text now) = endpoint.createdAt :=
    if_neg (by simp [h.created])
  rw [stamped, Option.map_none, Option.toList_none, List.nil_append, hcreated]

/-- **Export and import.** The payload of an endpoint that comes out of a payload is read as the
same endpoint. The document exported from a registry of such endpoints is read as its endpoints, and
registering them one after another makes the same registry, but for the times of the last
updates. -/
theorem import_exported :
    (∀ payload endpoint, Endpoint.ofPayload payload = .ok endpoint →
      Endpoint.ofPayload endpoint.toPayload = .ok endpoint) ∧
    ∀ history : History, (∀ operation ∈ history, operation.IsAccepted) →
      Definitions.ofDocument (after history).exported = .ok (after history).endpoints ∧
      ∀ batch : Batch, batch.map Prod.fst = (after history).endpoints →
        empty.saveAll batch
          = ⟨batch.map fun entry ↦ { entry.1 with updatedAt := .text entry.2 }⟩ := by
  refine ⟨fun payload endpoint h ↦ (Endpoint.wellFormed_of_ofPayload h).ofPayload_toPayload,
    fun history haccepted ↦ ?_⟩
  have hstored := isStored_after haccepted
  refine ⟨ofPayloads_toPayload hstored 0, fun batch hbatch ↦ ?_⟩
  have hdistinct : (empty.identities ++ Batch.identities batch).Nodup := by
    have hidentities : Batch.identities batch = (after history).identities := by
      rw [identities, ← hbatch, List.map_map]
      rfl
    rw [hidentities]
    exact (tracks_after history).nodup
  rw [saveAll_of_nodup hdistinct]
  congr 1
  refine List.map_congr_left fun entry hentry ↦ stamped_of_isStored (hstored entry.1 ?_) entry.2
  rw [← hbatch]
  exact List.mem_map_of_mem hentry

/-- An endpoint from a payload that leaves much to the reader, registered twice, exported and
imported. -/
theorem import_exported_users :
    letI : Stack := .usual
    let payload : Value := .ofEntries [("endpointId", .text " users/:id "), ("method", .text "any"),
      ("statusCode", .text "201"), ("headers", .ofEntries [("X-Cached", .bool true)]),
      ("scenarios", .ofItems [.ofEntries [("condition", .text "path.id == 0")]])]
    let endpoint : Endpoint := ⟨"/users/:id", .any, ⟨201, 0, "\x7b\x7d"⟩, [("X-Cached", "True")],
      [⟨"Scenario 1", "path.id == 0", 201, 0, "\x7b\x7d"⟩], .null, .null⟩
    let history : History := [.save endpoint "t1", .save endpoint "t2"]
    let stored : Endpoint := { endpoint with createdAt := .text "t1", updatedAt := .text "t2" }
    Endpoint.ofPayload payload = .ok endpoint ∧ (∀ operation ∈ history, operation.IsAccepted) ∧
      (after history).endpoints = [stored] ∧
      Endpoint.ofPayload endpoint.toPayload = .ok endpoint ∧
      Definitions.ofDocument (after history).exported = .ok [stored] ∧
      empty.saveAll [(stored, "t3")] = ⟨[{ stored with updatedAt := .text "t3" }]⟩ := by
  intro payload endpoint history stored
  have hpayload : @Endpoint.ofPayload .usual payload = .ok endpoint := rfl
  have haccepted : ∀ operation ∈ history, @Operation.IsAccepted .usual operation := by
    simp only [history, List.forall_mem_cons, List.not_mem_nil, false_imp_iff, implies_true,
      and_true]
    exact ⟨⟨⟨payload, hpayload⟩, by decide⟩, ⟨⟨payload, hpayload⟩, by decide⟩⟩
  have hstored : (after history).endpoints = [stored] := rfl
  obtain ⟨hround, himport⟩ := @import_exported .usual
  obtain ⟨hdocument, hbatch⟩ := himport history haccepted
  exact ⟨hpayload, haccepted, hstored, hround payload endpoint hpayload, hstored ▸ hdocument,
    hbatch [(stored, "t3")] hstored.symm⟩

end Registry

end MockApi
