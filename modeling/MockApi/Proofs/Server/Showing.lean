import MockApi.Proofs.Route.Results
import MockApi.Proofs.Server.Metrics

/-!
# What replies show

A reply shows what its result tells: the endpoint and the scenario in headers, the status and the
body as they are, except for the statuses without a body. If the template gave no JSON, the reply
has a status of its own, shows the status that was meant inside its body and names no scenario.
Headers that an endpoint brings along may have the same names, and then they stand beside.
-/

namespace MockApi

variable {stack : Stack}

namespace Reply

/-! ## Headers of replies -/

/-- The name of the header that names the endpoint, as it is sent. -/
def endpointName : Text := "x-mockingbird-endpoint"

/-- The name of the header that names the scenario, as it is sent. -/
def scenarioName : Text := "x-mockingbird-scenario"

theorem toLatinLower?_endpointHeader : Text.toLatinLower? endpointHeader = some endpointName := by
  decide

theorem toLatinLower?_scenarioHeader : Text.toLatinLower? scenarioHeader = some scenarioName := by
  decide

/-- A reply tells something under a name, or nothing, beside what an endpoint brings along. -/
structure Tells (reply : Reply) (own : Table Text) (name : Text) (told? : Option Text) : Prop where
  /-- What is told is there. -/
  told : ∀ value ∈ told?, (name, value) ∈ reply.headers
  /-- Nothing else is there, unless the endpoint brings it along. -/
  only : (∀ header ∈ own, Text.toLatinLower? header.1 ≠ some name) →
    ∀ value, (name, value) ∈ reply.headers → value ∈ told?

variable {headers own : Table Text} {sent : List (Text × Text)} {reply : Reply}
  {name : Text} {told? : Option Text}

theorem Tells.mono (h : reply.Tells [] name told?) : reply.Tells own name told? :=
  ⟨h.told, fun _ ↦ h.only (List.forall_mem_nil _)⟩

theorem mem_sent (hsent : headers.mapM encodeHeader = .ok sent) {header : Text × Text}
    (hheader : header ∈ headers) (hname : Text.toLatinLower? header.1 = some name) :
    (name, header.2) ∈ sent := by
  obtain ⟨⟨name', value⟩, hmem, hencode⟩ :=
    exists_mem_of_forall₂_left (mapM_eq_ok_iff.mp hsent) hheader
  obtain ⟨hname', -, rfl⟩ := encodeHeader_eq_ok_iff.mp hencode
  obtain rfl := Option.some.inj (hname.symm.trans hname')
  exact hmem

theorem exists_header_of_mem_sent (hsent : headers.mapM encodeHeader = .ok sent) {value : Text}
    (hmem : (name, value) ∈ sent) :
    ∃ header ∈ headers, Text.toLatinLower? header.1 = some name ∧ header.2 = value := by
  obtain ⟨header, hheader, hencode⟩ :=
    exists_mem_of_forall₂_right (mapM_eq_ok_iff.mp hsent) hmem
  obtain ⟨hname, -, hvalue⟩ := encodeHeader_eq_ok_iff.mp hencode
  exact ⟨header, hheader, hname, hvalue⟩

theorem mem_typed_iff (hname : name ≠ contentType) {value : Text} :
    (name, value) ∈ typed sent ↔ (name, value) ∈ sent := by
  unfold typed
  split
  · rfl
  · simp [hname]

/-! ## The headers of an endpoint -/

theorem mem_servedHeaders {answer : Served} {header : Text × Text}
    (h : header ∈ servedHeaders answer) : header ∈ answer.endpoint.headers ∨
      header = (endpointHeader, answer.endpoint.identity) ∨
      ∃ scenario ∈ answer.selection.scenario?, header = (scenarioHeader, scenario) := by
  unfold servedHeaders at h
  dsimp only at h
  split at h
  · exact (Table.mem_of_mem_insert h).imp_right .inl
  · exact (Table.mem_of_mem_insert h).imp_right .inl
  · rename_i scenario _ hscenario
    rcases Table.mem_of_mem_insert h with h | rfl
    · exact (Table.mem_of_mem_insert h).imp_right .inl
    · exact .inr (.inr ⟨scenario, hscenario, rfl⟩)

theorem get?_servedHeaders_endpoint (answer : Served) :
    (servedHeaders answer).get? endpointHeader = some answer.endpoint.identity := by
  have hne : endpointHeader ≠ scenarioHeader := by decide
  unfold servedHeaders
  dsimp only
  split
  · rw [Table.get?_insert, if_pos rfl]
  · rw [Table.get?_insert, if_pos rfl]
  · rw [Table.get?_insert, if_neg hne, Table.get?_insert, if_pos rfl]

theorem get?_servedHeaders_scenario {answer : Served} {scenario : Text}
    (h : answer.selection.scenario? = some scenario) (hne : scenario ≠ []) :
    (servedHeaders answer).get? scenarioHeader = some scenario := by
  obtain ⟨c, rest, rfl⟩ := List.exists_cons_of_ne_nil hne
  rw [servedHeaders, h]
  exact (Table.get?_insert ..).trans (if_pos rfl)

section Served

variable {answer : Served}

/-- The headers of an endpoint tell who answered. -/
theorem tells_endpoint (hsent : (servedHeaders answer).mapM encodeHeader = .ok sent)
    (hheaders : ∀ value, (endpointName, value) ∈ reply.headers ↔ (endpointName, value) ∈ sent) :
    reply.Tells answer.endpoint.headers endpointName (some answer.endpoint.identity) := by
  have hother : Text.toLatinLower? scenarioHeader ≠ some endpointName := by decide
  constructor
  · rintro value ⟨⟩
    have hmem := Table.mem_of_get?_eq_some (get?_servedHeaders_endpoint answer)
    exact (hheaders _).mpr (mem_sent hsent hmem toLatinLower?_endpointHeader)
  · intro hown value hmem
    obtain ⟨header, hheader, hlower, rfl⟩ :=
      exists_header_of_mem_sent hsent ((hheaders value).mp hmem)
    rcases mem_servedHeaders hheader with hheader | rfl | ⟨scenario, -, rfl⟩
    · exact absurd hlower (hown header hheader)
    · rfl
    · exact absurd hlower hother

/-- They tell for which scenario, if it has a name. -/
theorem tells_scenario (hsent : (servedHeaders answer).mapM encodeHeader = .ok sent)
    (hheaders : ∀ value, (scenarioName, value) ∈ reply.headers ↔ (scenarioName, value) ∈ sent)
    (hnamed : answer.selection.scenario? ≠ some []) :
    reply.Tells answer.endpoint.headers scenarioName answer.selection.scenario? := by
  have hother : Text.toLatinLower? endpointHeader ≠ some scenarioName := by decide
  constructor
  · intro scenario hscenario
    have hne : scenario ≠ [] := by
      rintro rfl
      exact hnamed hscenario
    have hmem := Table.mem_of_get?_eq_some (get?_servedHeaders_scenario hscenario hne)
    exact (hheaders _).mpr (mem_sent hsent hmem toLatinLower?_scenarioHeader)
  · intro hown value hmem
    obtain ⟨header, hheader, hlower, rfl⟩ :=
      exists_header_of_mem_sent hsent ((hheaders value).mp hmem)
    rcases mem_servedHeaders hheader with hheader | rfl | ⟨scenario, hscenario, rfl⟩
    · exact absurd hlower (hown header hheader)
    · exact absurd hlower hother
    · exact hscenario

end Served

end Reply

/-! ## Replies to results -/

namespace DispatchResult

open Reply

/-- A result as it comes of dispatching to endpoints in their fixed form. -/
structure IsProper (result : DispatchResult) : Prop where
  /-- A scenario that is told has a name. -/
  named : result.scenario? ≠ some []
  /-- There is a body unless the template gave no JSON. -/
  notJson : ∀ answer error, result = .served answer → answer.body = .error error →
    ∃ text reason, error = .notJson answer.selection.response.status text reason

/-- So do all results of dispatching to endpoints in their fixed form. -/
theorem isProper_of_dispatch {settings : DispatchSettings} {registry : Registry}
    {request : DispatchRequest} {result : DispatchResult}
    (hformed : ∀ endpoint ∈ registry.endpoints, endpoint.WellFormed)
    (h : (Dispatch.dispatch settings registry request).value = .ok result) : result.IsProper := by
  cases result with
  | notFound method url available =>
    exact ⟨(Option.some_ne_none []).symm, fun _ _ hserved ↦ by cases hserved⟩
  | served answer =>
    refine ⟨Dispatch.scenario?_ne_nil hformed h, ?_⟩
    rintro _ error ⟨⟩ herror
    exact Dispatch.notJson_of_dispatch h herror

/-- A reply shows a result. -/
structure ShownBy [Stack] (result : DispatchResult) (reply : Reply) : Prop where
  /-- The endpoint is told in a header. -/
  endpoint : reply.Tells result.ownHeaders endpointName result.endpoint?
  /-- The scenario is told in a header, unless the template gave no JSON. -/
  scenario : result.isNotJson = false →
    reply.Tells result.ownHeaders scenarioName result.scenario?
  /-- The status is that of the reply, unless the template gave no JSON. -/
  status : result.isNotJson = false → reply.status = result.status
  /-- The body is that of the reply, unless the status goes without one. -/
  body : ∀ body ∈ result.body?, if bareStatuses.contains result.status then reply.body = []
    else Json.write .standard body = .ok reply.body
  /-- If the template gave no JSON, the status that was meant is told in the body. -/
  notJson : result.isNotJson = true → reply.status = 500 ∧ ∃ content,
    Json.write .standard (.ofEntries content) = .ok reply.body ∧
      content.get? "scenarioStatus" = some (.int result.status)

variable {result : DispatchResult} {reply : Reply}

theorem shownBy_notFound {method url : Text} {available : List Text}
    (h : ofResult (.notFound method url available) = .ok reply) :
    (notFound method url available).ShownBy reply := by
  obtain ⟨body, -, rfl⟩ := json_eq_ok_iff.mp h
  have htells {name : Text} (hname : name ≠ contentType) :
      Tells ⟨404, [(contentType, jsonType)], body⟩ [] name none := by
    refine ⟨fun _ hvalue ↦ absurd hvalue (Option.not_mem_none _), fun _ value hmem ↦ ?_⟩
    exact absurd (Prod.mk.inj (List.mem_singleton.mp hmem)).1 hname
  exact ⟨htells (by decide), fun _ ↦ htells (by decide), fun _ ↦ rfl,
    fun _ hbody ↦ absurd hbody (Option.not_mem_none _), fun hnotJson ↦ by cases hnotJson⟩

theorem shownBy_of_body {answer : Served} {body : Value} (hbody : answer.body = .ok body)
    (hnamed : answer.selection.scenario? ≠ some []) (h : ofResult (.served answer) = .ok reply) :
    (served answer).ShownBy reply := by
  have hjson : (served answer).isNotJson = false := by
    simp [isNotJson, hbody, Except.isOk, Except.toBool]
  have hbody? : ∀ value ∈ (served answer).body?, value = body := by
    simp [body?, hbody, Except.toOption]
  have hstatus : (served answer).status = answer.selection.response.status := rfl
  simp only [ofResult, hbody] at h
  -- a bare status sends the headers alone, any other has the type of the body among them
  by_cases hbare : bareStatuses.contains answer.selection.response.status = true
  · rw [if_pos hbare] at h
    obtain ⟨sent, hsent, h⟩ := bind_eq_ok_iff.mp h
    obtain rfl := Except.ok.inj h
    refine ⟨tells_endpoint hsent fun _ ↦ Iff.rfl,
      fun _ ↦ tells_scenario hsent (fun _ ↦ Iff.rfl) hnamed, fun _ ↦ rfl, fun value _ ↦ ?_,
      fun hnotJson ↦ ?_⟩
    · rw [hstatus, if_pos hbare]
    · rw [hjson] at hnotJson
      cases hnotJson
  · rw [if_neg hbare] at h
    obtain ⟨written, sent, ⟨hwritten, -⟩, hsent, rfl⟩ := json_eq_ok_iff_of_headers.mp h
    refine ⟨tells_endpoint hsent fun _ ↦ mem_typed_iff (by decide),
      fun _ ↦ tells_scenario hsent (fun _ ↦ mem_typed_iff (by decide)) hnamed, fun _ ↦ rfl,
      fun value hvalue ↦ ?_, fun hnotJson ↦ ?_⟩
    · rw [hstatus, if_neg hbare, hbody? value hvalue]
      exact hwritten
    · rw [hjson] at hnotJson
      cases hnotJson

theorem shownBy_of_notJson {answer : Served} {text reason : Text}
    (herror : answer.body = .error (.notJson answer.selection.response.status text reason))
    (h : ofResult (.served answer) = .ok reply) : (served answer).ShownBy reply := by
  have hjson : (served answer).isNotJson = true := by
    simp [isNotJson, herror, Except.isOk, Except.toBool]
  have hbody? : (served answer).body? = none := by simp [body?, herror, Except.toOption]
  simp only [ofResult, herror] at h
  -- such a reply has one header of its own, and what the endpoint brings along is left out
  obtain ⟨written, sent, ⟨hwritten, -⟩, hsent, rfl⟩ := json_eq_ok_iff_of_headers.mp h
  have htells :
      Tells ⟨500, typed sent, written⟩ [] endpointName (some answer.endpoint.identity) := by
    constructor
    · rintro value ⟨⟩
      exact (mem_typed_iff (by decide)).mpr
        (mem_sent hsent List.mem_cons_self toLatinLower?_endpointHeader)
    · intro _ value hmem
      obtain ⟨header, hheader, -, rfl⟩ :=
        exists_header_of_mem_sent hsent ((mem_typed_iff (by decide)).mp hmem)
      rw [List.mem_singleton.mp hheader]
      rfl
  refine ⟨htells.mono, fun hok ↦ ?_, fun hok ↦ ?_, fun value hvalue ↦ ?_,
    fun _ ↦ ⟨rfl, _, hwritten, rfl⟩⟩
  · rw [hjson] at hok
    cases hok
  · rw [hjson] at hok
    cases hok
  · rw [hbody?] at hvalue
    cases hvalue

/-- A reply to a proper result shows it. -/
theorem shownBy_of_ofResult (hproper : result.IsProper) (h : ofResult result = .ok reply) :
    result.ShownBy reply := by
  cases result with
  | notFound method url available => exact shownBy_notFound h
  | served answer =>
    cases hbody : answer.body with
    | ok body => exact shownBy_of_body hbody hproper.named h
    | error error =>
      obtain ⟨text, reason, rfl⟩ := hproper.notJson answer error rfl hbody
      exact shownBy_of_notJson hbody h

/-! ## Which results are replied to -/

/-- The reply to a result can be sent. -/
def IsSendable [Stack] : DispatchResult → Prop
  | notFound method url available =>
    method.IsEncodable ∧ url.IsEncodable ∧ ∀ identity ∈ available, identity.IsEncodable
  | served answer => match answer.body with
    | .ok body => (∀ header ∈ servedHeaders answer, IsSendableHeader header) ∧
      (bareStatuses.contains answer.selection.response.status = false →
        body.SendsWithin Stack.writing)
    | .error error => IsSendableHeader (endpointHeader, answer.endpoint.identity) ∧
      error.message.IsEncodable ∧ ∀ entry ∈ error.details,
        entry.1.IsEncodable ∧ entry.2.SendsWithin (Stack.writing - 1)

/-- A result is replied to if and only if the reply can be sent. -/
theorem exists_ofResult_iff : (∃ reply, ofResult result = .ok reply) ↔ result.IsSendable := by
  cases result with
  | notFound method url available => exact exists_ofResult_notFound_iff
  | served answer =>
    unfold IsSendable
    cases hbody : answer.body with
    | ok body =>
      simp only [ofResult, hbody]
      by_cases hbare : bareStatuses.contains answer.selection.response.status = true
      · simp only [hbare, if_true, Bool.true_eq_false, false_imp_iff, and_true]
        rw [← exists_mapM_encodeHeader_iff]
        exact exists_bind_ok_eq_ok_iff
      · simp only [hbare, Bool.false_eq_true, if_false, true_imp_iff]
        exact exists_json_eq_ok_iff_of_headers.trans and_comm
    | error error =>
      simp only [ofResult, hbody]
      refine exists_json_eq_ok_iff_of_headers.trans ?_
      rw [List.forall_mem_singleton, and_comm]
      refine and_congr_right fun _ ↦ (Value.sendsWithin_ofEntries_iff Stack.writing_pos).trans ?_
      rw [List.forall_mem_cons, Value.sendsWithin_text, Text.isEncodable_append,
        and_iff_right (Text.isEncodable_ofString "error"),
        and_iff_right (Text.isEncodable_ofString "Internal Mock Error: ")]

end DispatchResult

end MockApi
