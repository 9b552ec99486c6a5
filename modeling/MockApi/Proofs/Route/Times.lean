import MockApi.Proofs.Outcome
import MockApi.Proofs.Route.History
import MockApi.Proofs.Value.Times
import MockApi.Route.Dispatch

/-!
# Registries that are the same but for times

Two registries may hold the same endpoints, registered at different times. No edit tells them apart,
and neither does a request: the times of an endpoint have no part in finding or serving it.
-/

namespace MockApi

variable {stack : Stack}

/-! ## Lists side by side -/

section Lists

variable {α β γ δ : Type} {r : α → β → Prop} {s : γ → δ → Prop} {xs : List α} {ys : List β}

/-- Of two lists side by side, the first items of a kind stand side by side. -/
theorem rel_find? {p : α → Bool} {q : β → Bool} (h : List.Forall₂ r xs ys)
    (hpq : ∀ x y, r x y → p x = q y) : Option.Rel r (xs.find? p) (ys.find? q) := by
  induction h with
  | nil => exact .none
  | cons hxy _ ih =>
    rw [List.find?_cons, List.find?_cons, ← hpq _ _ hxy]
    split
    · exact .some hxy
    · exact ih

/-- What is found first in two lists side by side is related if it is item by item. -/
theorem rel_findSome? {f : α → Option γ} {g : β → Option δ} (h : List.Forall₂ r xs ys)
    (hfg : ∀ x y, r x y → Option.Rel s (f x) (g y)) :
    Option.Rel s (xs.findSome? f) (ys.findSome? g) := by
  induction h with
  | nil => exact .none
  | @cons x y _ _ hxy _ ih =>
    have hfound := hfg x y hxy
    rw [List.findSome?_cons, List.findSome?_cons]
    generalize f x = found? at hfound ⊢
    generalize g y = found?' at hfound ⊢
    cases hfound with
    | none => exact ih
    | some hfound => exact .some hfound

end Lists

/-! ## Endpoints -/

namespace Endpoint

/-- Two endpoints that are the same apart from their times. -/
structure SameButTimes (endpoint other : Endpoint) : Prop where
  /-- The contents are the same. -/
  content : endpoint.content = other.content
  /-- The times of creation may differ. -/
  createdAt : endpoint.createdAt.SameTime other.createdAt
  /-- The times of the last update may differ. -/
  updatedAt : endpoint.updatedAt.SameTime other.updatedAt

theorem SameButTimes.refl (endpoint : Endpoint) : endpoint.SameButTimes endpoint :=
  ⟨rfl, .refl _, .refl _⟩

variable {endpoint other : Endpoint}

/-- What is left to differ are the times. -/
theorem SameButTimes.eq_update (h : endpoint.SameButTimes other) :
    other = { endpoint with createdAt := other.createdAt, updatedAt := other.updatedAt } := by
  obtain ⟨path, method, response, headers, scenarios, createdAt, updatedAt⟩ := endpoint
  obtain ⟨path', method', response', headers', scenarios', createdAt', updatedAt'⟩ := other
  obtain ⟨hcontent, -, -⟩ := h
  simp only [Endpoint.content, Prod.mk.injEq] at hcontent
  obtain ⟨rfl, rfl, rfl, rfl, rfl⟩ := hcontent
  rfl

theorem SameButTimes.identity_eq (h : endpoint.SameButTimes other) :
    endpoint.identity = other.identity := by
  rw [h.eq_update]
  rfl

theorem SameButTimes.toPayload (h : endpoint.SameButTimes other) :
    endpoint.toPayload.SameButTimes other.toPayload := by
  have hcreated : Value.SameEntry ("createdAt", endpoint.createdAt)
      ("createdAt", other.createdAt) := .time (by decide) h.createdAt
  have hupdated : Value.SameEntry ("updatedAt", endpoint.updatedAt)
      ("updatedAt", other.updatedAt) := .time (by decide) h.updatedAt
  rw [h.eq_update]
  refine .ofEntries ?_
  iterate 8 refine .cons (.refl _) ?_
  exact .cons hcreated (.cons hupdated .nil)

end Endpoint

/-! ## Registries -/

namespace Registry

/-- Two registries with the same endpoints apart from their times. -/
def SameButTimes (registry other : Registry) : Prop :=
  List.Forall₂ Endpoint.SameButTimes registry.endpoints other.endpoints

theorem SameButTimes.refl (registry : Registry) : registry.SameButTimes registry :=
  List.forall₂_same.mpr fun endpoint _ ↦ .refl endpoint

variable {registry other : Registry} {now now' : Text}

theorem SameButTimes.map_eq {α : Type} {f : Endpoint → α} (h : registry.SameButTimes other)
    (hf : ∀ endpoint other, endpoint.SameButTimes other → f endpoint = f other) :
    registry.endpoints.map f = other.endpoints.map f := by
  rw [← List.forall₂_eq_eq_eq, List.forall₂_map_left_iff, List.forall₂_map_right_iff]
  exact h.imp hf

theorem SameButTimes.identities_eq (h : registry.SameButTimes other) :
    registry.identities = other.identities :=
  h.map_eq fun _ _ ↦ Endpoint.SameButTimes.identity_eq

theorem SameButTimes.size_eq (h : registry.SameButTimes other) : registry.size = other.size :=
  h.length_eq

theorem SameButTimes.contains_eq (h : registry.SameButTimes other) (identity : Text) :
    registry.contains identity = other.contains identity := by
  rw [Bool.eq_iff_iff, contains_iff, contains_iff, h.identities_eq]

theorem SameButTimes.get? (h : registry.SameButTimes other) (identity : Text) :
    Option.Rel Endpoint.SameButTimes (registry.get? identity) (other.get? identity) :=
  rel_find? h fun endpoint other hendpoint ↦ by rw [hendpoint.identity_eq]

/-! ### Editing -/

theorem sameTime_firstGiven {values others : List Value} {last last' : Value}
    (h : List.Forall₂ Value.SameTime values others) (hlast : last.SameTime last') :
    (firstGiven values last).SameTime (firstGiven others last') := by
  induction h with
  | nil => exact hlast
  | cons hvalue _ ih =>
    rw [firstGiven, firstGiven, ← hvalue.isVacant_eq]
    split
    · exact ih
    · exact hvalue

/-- What is stored at different times in place of endpoints that are the same but for times is, too.
-/
theorem sameButTimes_stamped (endpoint : Endpoint) {older? older?' : Option Endpoint}
    (holder : Option.Rel Endpoint.SameButTimes older? older?') (hnow : now.IsTime)
    (hnow' : now'.IsTime) :
    (stamped endpoint older? now).SameButTimes (stamped endpoint older?' now') := by
  refine ⟨rfl, sameTime_firstGiven ?_ (.times hnow hnow'), .times hnow hnow'⟩
  cases holder with
  | none => exact .cons (.refl _) .nil
  | some holder => exact .cons holder.createdAt (.cons (.refl _) .nil)

theorem SameButTimes.upsert (h : registry.SameButTimes other) (endpoint : Endpoint)
    (hnow : now.IsTime) (hnow' : now'.IsTime) :
    (registry.upsert endpoint now).SameButTimes (other.upsert endpoint now') := by
  obtain ⟨endpoints⟩ := registry
  obtain ⟨others⟩ := other
  unfold Registry.SameButTimes at h ⊢
  unfold Registry.upsert Registry.save
  dsimp only at h ⊢
  induction h with
  | nil => exact .cons (sameButTimes_stamped endpoint .none hnow hnow') .nil
  | cons holder hrest ih =>
    rw [saveIn, saveIn, ← holder.identity_eq]
    split
    · exact .cons (sameButTimes_stamped endpoint (.some holder) hnow hnow') hrest
    · exact .cons holder ih

theorem SameButTimes.delete (h : registry.SameButTimes other) (identity : Text) :
    (registry.delete identity).SameButTimes (other.delete identity) := by
  refine List.rel_filter ?_ h
  intro endpoint other hendpoint
  dsimp only
  rw [hendpoint.identity_eq]

/-! ### Routing -/

/-- What is found with the same captures, but for times. -/
def SameFound (found other : Endpoint × Table Text) : Prop :=
  found.1.SameButTimes other.1 ∧ found.2 = other.2

theorem SameButTimes.find? (h : registry.SameButTimes other) (method path : Text) :
    Option.Rel SameFound (registry.find? method path) (other.find? method path) := by
  refine rel_findSome? h fun endpoint other hendpoint ↦ ?_
  have hpath : other.path = endpoint.path := by rw [hendpoint.eq_update]
  have hmethod : other.method = endpoint.method := by rw [hendpoint.eq_update]
  rw [hpath, hmethod]
  split
  · cases Route.match? endpoint.path path with
    | none => exact .none
    | some captures => exact .some ⟨hendpoint, rfl⟩
  · exact .none

end Registry

/-! ## Dispatching -/

/-- Two computations that wait alike and fail alike or have results that are in a relation. -/
structure Waited.Agree {ε α : Type} (r : α → α → Prop) (x y : Waited (Except ε α)) : Prop where
  /-- Both wait alike. -/
  slept : x.slept = y.slept
  /-- What comes after that agrees. -/
  value : MockApi.Agree r x.value y.value

/-- Two results that are the same apart from the times of the endpoint. -/
inductive DispatchResult.SameButTimes : DispatchResult → DispatchResult → Prop
  /-- No endpoint answered. -/
  | notFound (method url : Text) (available : List Text) :
    SameButTimes (.notFound method url available) (.notFound method url available)
  /-- Endpoints answered that are the same but for times. -/
  | served {endpoint other : Endpoint} (h : endpoint.SameButTimes other) (selection : Selection)
    (context : RequestContext) (body : Except DispatchError Value) :
    SameButTimes (.served ⟨endpoint, selection, context, body⟩)
      (.served ⟨other, selection, context, body⟩)

namespace DispatchResult

/-- The latency is a single entry of a report, and nothing else depends on it. -/
theorem exists_report_eq (result : DispatchResult) :
    (∃ failure, ∀ latency, result.report latency = .error failure) ∨
    ∃ before after : Entries, ∀ latency, result.report latency
      = .ok (.ofEntries (before ++ (("latencyMs" : Text), .double latency) :: after)) := by
  cases result with
  | notFound method url available =>
    refine .inr ⟨[("kind", .text "not_found"), ("statusCode", .int 404), ("endpoint", .null),
      ("scenario", .null), ("delay", .int 0)], [
      ("error", .text (DispatchError.notFound method url available).message),
      ("availableEndpoints", .ofItems (available.map .text))], fun latency ↦ rfl⟩
  | served answer =>
    obtain ⟨endpoint, selection, context, body⟩ := answer
    cases hrequest : Value.jsonReady (.ofEntries [("pathParams", context.path),
      ("queryParams", context.query), ("bodyParams", context.body)]) with
    | error failure =>
      refine .inl ⟨failure, fun latency ↦ ?_⟩
      simp only [report, hrequest]
      rfl
    | ok request =>
      right
      simp only [report, hrequest, ok_bind]
      cases body with
      | ok body =>
        exact ⟨[("kind", .text "ok"), _, _, _, _], [("body", body), ("request", request)],
          fun latency ↦ rfl⟩
      | error error =>
        cases error with
        | notFound =>
          exact ⟨[("kind", .text "not_found"), _, _, _, _], [_, _, _], fun latency ↦ rfl⟩
        | notJson =>
          exact ⟨[("kind", .text "render_error"), _, _, _, _], [_, _, _, _], fun latency ↦ rfl⟩

/-- The report on a result tells no times but the latency. -/
theorem SameButTimes.agree_report {result other : DispatchResult} (h : result.SameButTimes other)
    {latency latency' : Double} (hlatency : Number.IsSendable (.double latency))
    (hlatency' : Number.IsSendable (.double latency')) :
    Agree Value.SameButTimes (result.report latency) (other.report latency') := by
  have heq : other.report latency' = result.report latency' := by
    cases h with
    | notFound => rfl
    | served h =>
      unfold report
      dsimp only
      rw [h.identity_eq]
      rfl
  rw [heq]
  obtain ⟨failure, hreport⟩ | ⟨before, after, hreport⟩ := result.exists_report_eq
  · rw [hreport, hreport]
    exact .error failure
  · rw [hreport, hreport]
    have hname : ("latencyMs" : Text) ∈ Value.measureNames := by decide
    exact .ok (.measure hname hlatency hlatency')

end DispatchResult

namespace Dispatch

variable {endpoint other : Endpoint}

theorem agree_respond (h : endpoint.SameButTimes other) (mode : RenderMode)
    (context : RequestContext) (selection : Selection) :
    Waited.Agree DispatchResult.SameButTimes (respond mode endpoint context selection)
      (respond mode other context selection) := by
  have hfinish : Agree DispatchResult.SameButTimes
      (((body mode selection.response context).mapError DispatchFailure.failed) >>= fun body ↦
        .ok (.served ⟨endpoint, selection, context, body⟩))
      (((body mode selection.response context).mapError DispatchFailure.failed) >>= fun body ↦
        .ok (.served ⟨other, selection, context, body⟩)) := by
    refine (Agree.refl Eq.refl _).bind ?_
    rintro body _ rfl
    exact .ok (.served h selection context body)
  unfold respond
  dsimp only
  split
  · exact ⟨rfl, hfinish⟩
  · split
    · exact ⟨rfl, hfinish⟩
    · exact ⟨rfl, .error _⟩

theorem agree_serve (h : endpoint.SameButTimes other) (mode : RenderMode)
    (request : DispatchRequest) (captures : Table Text) :
    Waited.Agree DispatchResult.SameButTimes (serve mode request endpoint captures)
      (serve mode request other captures) := by
  have hselect (context : RequestContext) : other.select context = endpoint.select context := by
    rw [h.eq_update]
    rfl
  unfold serve
  simp only [hselect]
  split
  · exact agree_respond h mode _ _
  · exact ⟨rfl, .error _⟩

/-- A request has the same result but for times. -/
theorem agree_dispatch {registry other : Registry} (h : registry.SameButTimes other)
    (settings : DispatchSettings) (request : DispatchRequest) :
    Waited.Agree DispatchResult.SameButTimes (dispatch settings registry request)
      (dispatch settings other request) := by
  unfold dispatch
  dsimp only
  split
  · exact ⟨rfl, .error _⟩
  · rename_i path _
    rw [← h.identities_eq]
    have hfound := h.find? request.method.toUpper path
    generalize registry.find? request.method.toUpper path = found? at hfound ⊢
    generalize other.find? request.method.toUpper path = found?' at hfound ⊢
    cases hfound with
    | none => exact ⟨rfl, .ok (.notFound ..)⟩
    | @some found found' hfound =>
      obtain ⟨hendpoint, hcaptures⟩ := hfound
      dsimp only
      rw [← hcaptures]
      exact agree_serve hendpoint settings.renderMode request found.2

end Dispatch

end MockApi
