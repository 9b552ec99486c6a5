import MockApi.Proofs.Endpoint.Selection
import MockApi.Proofs.Route.Dispatch
import MockApi.Proofs.Route.Stability
import MockApi.Proofs.Route.Times
import MockApi.Proofs.Url.Target

/-!
# What results tell

A result tells which endpoint answered a request and for which scenario, the status that is meant
and, unless the template gave no JSON, the body. The report on a result has all of this under fixed
names. Two requests that lead alike have the same results, except that a result without an endpoint
repeats the URL as it was given.
-/

namespace MockApi

variable {stack : Stack}

theorem DispatchError.isEncodable_message_notFound {method url : Text} {available : List Text} :
    (DispatchError.notFound method url available).message.IsEncodable ↔
      method.IsEncodable ∧ url.IsEncodable := by
  have hspace : Text.IsEncodable (" " : Text) := by decide
  rw [DispatchError.message, Text.isEncodable_append, Text.isEncodable_append,
    Text.isEncodable_append]
  simp [hspace]

namespace DispatchResult

/-! ## Parts of results -/

/-- The identity of the endpoint that answered. -/
def endpoint? : DispatchResult → Option Text
  | notFound .. => none
  | served answer => some answer.endpoint.identity

/-- The name of the scenario that applied. -/
def scenario? : DispatchResult → Option Text
  | notFound .. => none
  | served answer => answer.selection.scenario?

/-- The headers that the endpoint brings along. -/
def ownHeaders : DispatchResult → Table Text
  | notFound .. => []
  | served answer => answer.endpoint.headers

/-- The body, unless there is none. -/
def body? : DispatchResult → Option Value
  | notFound .. => none
  | served answer => answer.body.toOption

/-- The name of the kind of a result. -/
def kind (result : DispatchResult) : Text := (result.error?.map DispatchError.kind).getD "ok"

/-! ## Reports -/

/-- A report has the parts of a result under their names. -/
structure ReportedBy (result : DispatchResult) (report : Entries) : Prop where
  /-- The kind is told. -/
  kind : report.get? "kind" = some (.text result.kind)
  /-- The endpoint is told. -/
  endpoint : report.get? "endpoint" = some ((result.endpoint?.map .text).getD .null)
  /-- The scenario is told. -/
  scenario : report.get? "scenario" = some ((result.scenario?.map .text).getD .null)
  /-- The status is told. -/
  status : report.get? "statusCode" = some (.int result.status)
  /-- The body is told, if there is one. -/
  body : report.get? "body" = result.body?

/-- A report has the parts of its result, however long it took. -/
theorem reportedBy_of_report {result : DispatchResult} {latency : Double} {value : Value}
    (h : result.report latency = .ok value) :
    ∃ report, value = .ofEntries report ∧ result.ReportedBy report := by
  cases result with
  | notFound method url available =>
    obtain rfl := Except.ok.inj h
    exact ⟨_, rfl, rfl, rfl, rfl, rfl, rfl⟩
  | served answer =>
    obtain ⟨echo, -, h⟩ := bind_eq_ok_iff.mp h
    obtain rfl := Except.ok.inj h
    refine ⟨_, rfl, ?_⟩
    obtain ⟨endpoint, selection, context, body⟩ := answer
    cases body with
    | ok body => exact ⟨rfl, rfl, rfl, rfl, rfl⟩
    | error error => cases error <;> exact ⟨rfl, rfl, rfl, rfl, rfl⟩

/-! ## Results that differ in the URL only -/

/-- Two results that are the same apart from the URL that nothing was found for. -/
inductive SameButUrl : DispatchResult → DispatchResult → Prop
  /-- No endpoint answered. -/
  | notFound (method : Text) {url other : Text} (h : url.IsEncodable ↔ other.IsEncodable)
    (available : List Text) : SameButUrl (.notFound method url available)
      (.notFound method other available)
  /-- The same endpoint answered alike. -/
  | served (answer : Served) : SameButUrl (.served answer) (.served answer)

variable {result other : DispatchResult}

theorem SameButUrl.refl (result : DispatchResult) : result.SameButUrl result := by
  cases result with
  | notFound method url available => exact .notFound method Iff.rfl available
  | served answer => exact .served answer

theorem SameButUrl.reportedBy (h : result.SameButUrl other) {report : Entries}
    (hreport : other.ReportedBy report) : result.ReportedBy report := by
  cases h with
  | notFound =>
    exact ⟨hreport.kind, hreport.endpoint, hreport.scenario, hreport.status, hreport.body⟩
  | served => exact hreport

/-- When the report that nothing was found can be sent. -/
theorem exists_report_notFound_iff {method url : Text} {available : List Text} {latency : Double}
    {levels : Nat} (hlevels : 0 < levels) :
    (∃ report, (notFound method url available).report latency = .ok report ∧
      report.SendsWithin levels) ↔
      (Value.double latency).SendsWithin (levels - 1) ∧ method.IsEncodable ∧ url.IsEncodable ∧
        (Value.ofItems (available.map .text)).SendsWithin (levels - 1) := by
  have hreport : (notFound method url available).report latency = .ok (.ofEntries [
      ("kind", .text "not_found"), ("statusCode", .int 404), ("endpoint", .null),
      ("scenario", .null), ("delay", .int 0), ("latencyMs", .double latency),
      ("error", .text (DispatchError.notFound method url available).message),
      ("availableEndpoints", .ofItems (available.map .text))]) := rfl
  have hshort : IsShort 404 ∧ IsShort 0 := by decide
  simp only [hreport, Except.ok.injEq, exists_eq_left', Value.sendsWithin_ofEntries_iff hlevels,
    List.forall_mem_cons, Value.sendsWithin_text, Value.sendsWithin_int, Text.isEncodable_ofString,
    DispatchError.isEncodable_message_notFound, Value.sendsWithin_null, hshort, true_and]
  simp [and_assoc]

/-- The reports on both results can be sent, or neither. -/
theorem SameButUrl.exists_report_iff (h : result.SameButUrl other) {latency : Double}
    {levels : Nat} (hlevels : 0 < levels) :
    (∃ report, result.report latency = .ok report ∧ report.SendsWithin levels) ↔
      ∃ report, other.report latency = .ok report ∧ report.SendsWithin levels := by
  cases h with
  | served => exact Iff.rfl
  | notFound method hurl available =>
    rw [exists_report_notFound_iff hlevels, exists_report_notFound_iff hlevels, hurl]

end DispatchResult

namespace Dispatch

variable {settings : DispatchSettings} {registry : Registry} {request other : DispatchRequest}
  {answer : Served}

/-- Requests that lead alike have the same results but for the URL. -/
theorem agree_dispatch_of_leadAlike (hmethod : request.method = other.method)
    (hurl : Url.LeadAlike request.url other.url)
    (hcontext : ∀ captures, request.context captures = other.context captures) :
    Waited.Agree DispatchResult.SameButUrl (dispatch settings registry request)
      (dispatch settings registry other) := by
  have hserve (endpoint : Endpoint) (captures : Table Text) :
      serve settings.renderMode request endpoint captures
        = serve settings.renderMode other endpoint captures := by
    rw [serve, hcontext]
    rfl
  unfold dispatch
  rw [hurl.path_eq, hmethod]
  dsimp only
  split
  · exact ⟨rfl, .error _⟩
  · split
    · rw [hserve]
      exact ⟨rfl, .refl .refl _⟩
    · exact ⟨rfl, .ok (.notFound _ hurl.isEncodable_iff _)⟩

/-- Every scenario that is told has a name if all endpoints are in their fixed form. -/
theorem scenario?_ne_nil (hformed : ∀ endpoint ∈ registry.endpoints, endpoint.WellFormed)
    (h : (dispatch settings registry request).value = .ok (.served answer)) :
    answer.selection.scenario? ≠ some [] := by
  obtain ⟨⟨path, captures, hfind⟩, hselect, -⟩ := served_of_dispatch h
  obtain ⟨endpoint, hendpoint, hserve⟩ := List.exists_of_findSome?_eq_some hfind
  obtain rfl := Endpoint.eq_of_serve? hserve
  rw [Endpoint.select_eq_find?] at hselect
  split at hselect
  · rw [← Except.ok.inj hselect]
    exact (Option.some_ne_none []).symm
  · rename_i scenario hscenario
    split at hselect
    · cases hselect
    · rw [← Except.ok.inj hselect]
      intro hnil
      have hmem := List.mem_of_find?_eq_some hscenario
      exact ((hformed _ hendpoint).scenarios scenario hmem).named (Option.some.inj hnil)

/-- A body comes of a text that was read as a document. -/
theorem exists_read_of_dispatch
    (h : (dispatch settings registry request).value = .ok (.served answer)) :
    ∃ t, (∀ body, answer.body = .ok body → Json.read false t = .ok body) ∧
      ∀ error, answer.body = .error error → ∃ fault, Json.read false t = .error fault ∧
        error = .notJson answer.selection.response.status t
          ((Json.faultMessage? t fault).getD []) := by
  obtain ⟨-, -, hbody⟩ := served_of_dispatch h
  obtain ⟨t, -, hbody⟩ := bind_eq_ok_iff.mp hbody
  refine ⟨t, ?_⟩
  split at hbody
  · rename_i value hread
    obtain heq := Except.ok.inj hbody
    refine ⟨fun body hok ↦ ?_, fun error herror ↦ ?_⟩
    · rw [← heq] at hok
      rw [hread, Except.ok.inj hok]
    · rw [← heq] at herror
      cases herror
  · cases hbody
  · rename_i fault _ hread
    obtain heq := Except.ok.inj hbody
    refine ⟨fun body hok ↦ ?_, fun error herror ↦ ?_⟩
    · rw [← heq] at hok
      cases hok
    · rw [← heq] at herror
      exact ⟨fault, hread, (Except.error.inj herror).symm⟩

/-- If there is no body, then the template gave no JSON. -/
theorem notJson_of_dispatch {error : DispatchError}
    (h : (dispatch settings registry request).value = .ok (.served answer))
    (herror : answer.body = .error error) :
    ∃ text reason, error = .notJson answer.selection.response.status text reason := by
  obtain ⟨text, -, hfault⟩ := exists_read_of_dispatch h
  obtain ⟨fault, -, rfl⟩ := hfault error herror
  exact ⟨text, _, rfl⟩

end Dispatch

end MockApi
