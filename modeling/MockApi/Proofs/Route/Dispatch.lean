import MockApi.Proofs.Json.Nesting
import MockApi.Proofs.Template.Filling
import MockApi.Route.Dispatch

/-!
# Which requests are answered

A request has a result, be it a response, the news that no endpoint answers, or that of a template
that is no JSON, unless one of the steps to it fails. Each step fails under a condition of its own:
the authority of the URL is refused, explicit parameters are no object, the value that selects the
scenario cannot be tested, the delay is no double in seconds, the template cannot be filled in, or
the text that comes of it is nested beyond the limit.

The conditions are told apart step by step, and together they are exact.
-/

namespace MockApi

variable {stack : Stack}

/-! ## Paths -/

namespace Url

/-- The authority of a full URL, if there is one. -/
def authority? (url : Text) : Option Text :=
  if Text.includes "://" url then
    (("//" : Text).isPrefixOf? (dropScheme (clean url))).map
      (List.takeWhile fun c ↦ !endsAuthority c)
  else none

theorem exists_rawPath_eq_ok_iff {url : Text} :
    (∃ p, rawPath url = .ok p) ↔ ∀ authority ∈ authority? url, Authority.isValid authority := by
  unfold rawPath fullPath authority?
  by_cases hfull : Text.includes "://" url = true
  · rw [if_pos hfull, if_pos hfull]
    cases hrest : ("//" : Text).isPrefixOf? (dropScheme (clean url)) with
    | none => simp
    | some rest =>
      by_cases hvalid : Authority.isValid (rest.takeWhile fun c ↦ !endsAuthority c) = true
      · simp [hvalid]
      · simp [hvalid]
  · rw [if_neg hfull, if_neg hfull]
    simp

/-- A URL has a path unless its authority is refused. -/
theorem exists_path_eq_ok_iff (start url : Text) :
    (∃ p, path start url = .ok p) ↔ ∀ authority ∈ authority? url, Authority.isValid authority := by
  rw [← exists_rawPath_eq_ok_iff]
  exact exists_bind_ok_eq_ok_iff

end Url

/-! ## Selected responses -/

namespace Endpoint

/-- The scenario that applies to a request, if one does. -/
def applicable? [Stack] (endpoint : Endpoint) (context : RequestContext) : Option Scenario :=
  endpoint.scenarios.find? (Scenario.isTruthy context.bindings)

/-- The response that applies to a request. -/
def applicable [Stack] (endpoint : Endpoint) (context : RequestContext) : Response :=
  ((endpoint.applicable? context).map Scenario.response).getD endpoint.response

/-- The selected response is the one that applies, if the scenario that applies can be told. -/
theorem exists_select_eq_ok_iff {endpoint : Endpoint} {context : RequestContext}
    {p : Response → Prop} :
    (∃ selection, endpoint.select context = .ok selection ∧ p selection.response) ↔
      (∀ scenario ∈ endpoint.applicable? context, scenario.isHuge context.bindings = false) ∧
        p (endpoint.applicable context) := by
  rw [select_eq_find?]
  unfold applicable applicable?
  cases endpoint.scenarios.find? (Scenario.isTruthy context.bindings) with
  | none => simp
  | some scenario =>
    cases hhuge : scenario.isHuge context.bindings with
    | true => simp [hhuge]
    | false => simp [hhuge]

end Endpoint

/-! ## Delays -/

namespace Dispatch

/-- A delay is a double in seconds unless it reaches the limit of doubles. -/
theorem exists_seconds_eq_ok_iff {delay : Nat} :
    (∃ s, seconds delay = .ok s) ↔ delay < Double.limit * 1000 := by
  have hmilli : (1000 : Int).natAbs = 1000 := rfl
  unfold seconds
  rw [Number.divInt_eq (by decide), Int.natAbs_natCast, hmilli, ← Nat.not_le]
  by_cases hlarge : Double.limit * 1000 ≤ delay
  · simp [hlarge]
  · simp [hlarge, Number.toDouble]

/-! ## Responses -/

/-- A response that can be turned into a result. -/
structure Presentable [Stack] (mode : RenderMode) (response : Response) (context : RequestContext) :
    Prop where
  /-- The delay is a double in seconds. -/
  delay_lt : response.delay < Double.limit * 1000
  /-- The body can be tested for truth. -/
  body : context.body.isHuge = false
  /-- The values that are written into the template can be. -/
  written : ∀ value ∈ Template.written mode response.template context, value.Writable
  /-- The text that comes of the template is not nested beyond the limit. -/
  shallow : ∀ text, Template.render mode response.template context = .ok text →
    Json.read false text ≠ .error (.failed .nestingTooDeep)

variable {mode : RenderMode} {response : Response} {context : RequestContext}

/-- Reading the text that comes of a template gives a result, no JSON included, unless the text is
nested too deep. -/
theorem exists_body_eq_ok_iff : (∃ result, body mode response context = .ok result) ↔
    (∃ text, Template.render mode response.template context = .ok text) ∧
      ∀ text, Template.render mode response.template context = .ok text →
        Json.read false text ≠ .error (.failed .nestingTooDeep) := by
  unfold body
  cases Template.render mode response.template context with
  | error failure => simp
  | ok text =>
    simp only [ok_bind, Except.ok.injEq, exists_eq', true_and, forall_eq']
    split <;> simp_all

theorem presentable_iff : Presentable mode response context ↔
    response.delay < Double.limit * 1000 ∧
      ∃ result, body mode response context = .ok result := by
  rw [exists_body_eq_ok_iff, Template.exists_render_eq_ok_iff]
  constructor
  · intro h
    exact ⟨h.delay_lt, ⟨h.body, h.written⟩, h.shallow⟩
  · rintro ⟨hdelay, ⟨hbody, hwritten⟩, hshallow⟩
    exact ⟨hdelay, hbody, hwritten, hshallow⟩

/-- A response has a result unless the delay or the template stands in the way. -/
theorem exists_respond_eq_ok_iff {endpoint : Endpoint} {selection : Selection} :
    (∃ result, (respond mode endpoint context selection).value = .ok result) ↔
      Presentable mode selection.response context := by
  rw [presentable_iff, ← exists_seconds_eq_ok_iff]
  unfold respond
  dsimp only
  split
  · -- no time is slept, and none would be too long
    rename_i hzero
    have hseconds : ∃ s, seconds selection.response.delay = .ok s := by
      rw [exists_seconds_eq_ok_iff, hzero]
      exact Nat.mul_pos Double.limit_pos (by decide)
    rw [and_iff_right hseconds]
    simp [exists_bind_ok_eq_ok_iff, mapError_eq_ok_iff]
  · split
    · rename_i s hseconds
      simp [hseconds, exists_bind_ok_eq_ok_iff, mapError_eq_ok_iff]
    · rename_i failure hseconds
      simp [hseconds]

/-! ## Requests -/

/-- An endpoint answers a request: the response is selected, and it can be turned into a result. -/
structure Answers [Stack] (mode : RenderMode) (endpoint : Endpoint) (context : RequestContext) :
    Prop where
  /-- The value that selects the scenario can be tested for truth. -/
  selects : ∀ scenario ∈ endpoint.applicable? context, scenario.isHuge context.bindings = false
  /-- The response can be turned into a result. -/
  presentable : Presentable mode (endpoint.applicable context) context

theorem answers_iff {endpoint : Endpoint} : Answers mode endpoint context ↔
    ∃ selection, endpoint.select context = .ok selection ∧
      Presentable mode selection.response context := by
  rw [Endpoint.exists_select_eq_ok_iff (p := fun response ↦ Presentable mode response context)]
  constructor
  · intro h
    exact ⟨h.selects, h.presentable⟩
  · rintro ⟨hselects, hpresentable⟩
    exact ⟨hselects, hpresentable⟩

/-- Serving a request fails with its parameters, the selection or the response. -/
theorem exists_serve_eq_ok_iff {request : DispatchRequest} {endpoint : Endpoint}
    {captures : Table Text} :
    (∃ result, (serve mode request endpoint captures).value = .ok result) ↔
      ∃ context, request.context captures = .ok context ∧ Answers mode endpoint context := by
  unfold serve
  cases hcontext : request.context captures with
  | error failure => simp
  | ok context =>
    have hanswers : Answers mode endpoint context ↔ _ := answers_iff
    simp only [ok_bind, Except.ok.injEq, exists_eq_left', hanswers]
    cases hselect : endpoint.select context with
    | error failure => simp [Except.mapError]
    | ok selection =>
      simp [Except.mapError, exists_respond_eq_ok_iff]

/-! ## Where results come from -/

theorem exists_eq_served_of_respond {endpoint : Endpoint} {selection : Selection}
    {result : DispatchResult}
    (h : (respond mode endpoint context selection).value = .ok result) :
    ∃ rendered, body mode selection.response context = .ok rendered ∧
      result = .served ⟨endpoint, selection, context, rendered⟩ := by
  have hfinish {finish : Except DispatchFailure DispatchResult}
      (hdef : finish = (do
        let body ← (body mode selection.response context).mapError .failed
        return .served ⟨endpoint, selection, context, body⟩)) (hok : finish = .ok result) :
      ∃ rendered, body mode selection.response context = .ok rendered ∧
        result = .served ⟨endpoint, selection, context, rendered⟩ := by
    rw [hdef] at hok
    obtain ⟨rendered, hrendered, hresult⟩ := bind_eq_ok_iff.mp hok
    exact ⟨rendered, mapError_eq_ok_iff.mp hrendered, (Except.ok.inj hresult).symm⟩
  unfold respond at h
  dsimp only at h
  split at h
  · exact hfinish rfl h
  · split at h
    · exact hfinish rfl h
    · cases h

theorem exists_eq_served_of_serve {request : DispatchRequest} {endpoint : Endpoint}
    {captures : Table Text} {result : DispatchResult}
    (h : (serve mode request endpoint captures).value = .ok result) :
    ∃ context selection rendered, request.context captures = .ok context ∧
      endpoint.select context = .ok selection ∧
      body mode selection.response context = .ok rendered ∧
      result = .served ⟨endpoint, selection, context, rendered⟩ := by
  unfold serve at h
  dsimp only at h
  split at h
  · rename_i context selection hchosen
    obtain ⟨context', hcontext, hchosen⟩ := bind_eq_ok_iff.mp hchosen
    obtain ⟨selection', hselection, hchosen⟩ := bind_eq_ok_iff.mp hchosen
    cases hchosen
    obtain ⟨rendered, hrendered, hresult⟩ := exists_eq_served_of_respond h
    exact ⟨context, selection, rendered, hcontext, mapError_eq_ok_iff.mp hselection, hrendered,
      hresult⟩
  · cases h

/-- An answer is that of a registered endpoint: the selection is made for the data of the request,
and the body comes of the selected response. -/
theorem served_of_dispatch {settings : DispatchSettings} {registry : Registry}
    {request : DispatchRequest} {answer : Served}
    (h : (dispatch settings registry request).value = .ok (.served answer)) :
    (∃ path captures,
      registry.find? request.method.toUpper path = some (answer.endpoint, captures)) ∧
      answer.endpoint.select answer.context = .ok answer.selection ∧
      body settings.renderMode answer.selection.response answer.context = .ok answer.body := by
  unfold dispatch at h
  dsimp only at h
  split at h
  · cases h
  · rename_i path _
    split at h
    · rename_i endpoint captures hfind
      obtain ⟨context, selection, rendered, -, hselect, hbody, hresult⟩ :=
        exists_eq_served_of_serve h
      cases hresult
      exact ⟨⟨path, captures, hfind⟩, hselect, hbody⟩
    · cases h

/-! ## Which requests have a result -/

/-- **Which requests have a result.** A request that no endpoint answers needs an acceptable
authority and nothing else. A request that an endpoint answers has a result if and only if, besides,
its parameters are objects, the value that selects the scenario can be tested, the delay is a double
in seconds, the body can be tested, all values that are written can be, and the text that comes of
the template is not nested beyond the limit. -/
theorem exists_dispatch_eq_ok_iff (settings : DispatchSettings) (registry : Registry)
    (request : DispatchRequest) :
    (∃ result, (dispatch settings registry request).value = .ok result) ↔
      (∀ authority ∈ Url.authority? request.url, Authority.isValid authority) ∧
      ∀ path, Url.path settings.pathPrefix request.url = .ok path → ∀ endpoint captures,
        registry.find? request.method.toUpper path = some (endpoint, captures) →
        ∃ context, request.context captures = .ok context ∧
          Answers settings.renderMode endpoint context := by
  rw [← Url.exists_path_eq_ok_iff settings.pathPrefix]
  simp only [← exists_serve_eq_ok_iff]
  unfold dispatch
  dsimp only
  cases hpath : Url.path settings.pathPrefix request.url with
  | error fault => simp
  | ok path =>
    cases hfind : registry.find? request.method.toUpper path with
    | none => simp [hfind]
    | some found =>
      obtain ⟨endpoint, captures⟩ := found
      simp [hfind]

/-- With an opening bracket for its authority a request has no result, even if nothing is
registered. -/
theorem dispatch_openBracket :
    letI : Stack := .usual
    (dispatch ⟨"/api", .singlePass⟩ .empty
      ⟨"GET", "http://[", .ofEntries [], .ofEntries [], .null⟩).value =
        .error (.badUrl (.badAuthority "[")) := rfl

end Dispatch

end MockApi
