import MockApi.Proofs.Json.Limits
import MockApi.Proofs.Server.Showing

/-!
# Which results can be sent

A result of dispatching to endpoints in their fixed form has a status within the bounds and a body
that was read from a document. If there is neither a surrogate nor a number that is not finite in
it, nothing in the body keeps the result from being sent. What is left are the headers: the path of
the endpoint, the name of the scenario and the headers that the endpoint brings along are any text,
and a header holds Latin-1 only.
-/

namespace MockApi

variable {stack : Stack}

open Reply

/-! ## Texts in Latin-1 -/

/-- A text in Latin-1. -/
def Text.IsLatin (t : Text) : Prop := ∀ c ∈ t, Text.isLatin c = true

instance (t : Text) : Decidable t.IsLatin := inferInstanceAs (Decidable (∀ _ ∈ t, _))

namespace Endpoint

variable {endpoint : Endpoint}

/-- The identity of an endpoint is in Latin-1 if its path is. -/
theorem isLatin_identity_iff : endpoint.identity.IsLatin ↔ endpoint.path.IsLatin := by
  have hmethod : ∀ method : Method,
      ∀ c ∈ '-'.toNat :: method.name.toUpper, Text.isLatin c = true := by
    intro method
    cases method <;> decide
  rw [identity, identityOf, Text.IsLatin, List.forall_mem_append]
  exact and_iff_left (hmethod endpoint.method)

/-- The selected status is within the bounds. -/
theorem isStatus_of_select (hformed : endpoint.WellFormed) {context : RequestContext}
    {selection : Selection} (h : endpoint.select context = .ok selection) :
    IsStatus selection.response.status := by
  rw [select_eq_find?] at h
  split at h
  · rw [← Except.ok.inj h]
    exact hformed.status
  · rename_i scenario hscenario
    split at h
    · cases h
    · rw [← Except.ok.inj h]
      exact (hformed.scenarios scenario (List.mem_of_find?_eq_some hscenario)).status

end Endpoint

/-! ## Wordings of faults -/

namespace Json

variable {t message : Text} {fault : JsonFault}

theorem isEncodable_message (problem : JsonProblem) : problem.message.IsEncodable := by
  cases problem <;> exact Text.isEncodable_ofString _

theorem isEncodable_placeText (document : Text) (left : Nat) :
    (placeText document left).IsEncodable := by
  simp [placeText]

/-- What is wrong with a document is told without surrogates, whatever the document holds. -/
theorem isEncodable_faultMessage? {namesNonFinite : Bool}
    (hread : read namesNonFinite t = .error fault) (h : faultMessage? t fault = some message) :
    message.IsEncodable := by
  have hcolon : Text.IsEncodable (": " : Text) := Text.isEncodable_ofString _
  have hnames : ∀ entry ∈ nonFiniteNames, entry.1.IsEncodable := by decide
  cases fault with
  | malformed problem left =>
    obtain rfl := Option.some.inj h
    simp [isEncodable_message, hcolon, isEncodable_placeText]
  | nonFinite name =>
    obtain rfl := Option.some.inj h
    obtain ⟨x, hname⟩ := exists_mem_nonFiniteNames_of_read hread
    exact Text.isEncodable_append.mpr ⟨hnames _ hname, Text.isEncodable_ofString _⟩
  | failed failure =>
    rcases (read_eq_failed_iff.mp hread).cases with rfl | ⟨n, -, rfl⟩
    · cases h
    · obtain rfl := Option.some.inj h
      simp [Failure.digitLimitMessage]

end Json

/-! ## Headers of answers -/

/-- What an answer brings into the headers of its reply is in Latin-1. -/
structure Served.HasLatinHeaders (answer : Served) : Prop where
  /-- The path of the endpoint is in Latin-1. -/
  path : answer.endpoint.path.IsLatin
  /-- The name of the scenario is, unless the template gave no JSON. -/
  scenario : answer.body.isOk = true →
    ∀ scenario ∈ answer.selection.scenario?, Text.IsLatin scenario
  /-- So are the headers that the endpoint brings along and the reply does not replace, unless the
  template gave no JSON. -/
  own : answer.body.isOk = true → ∀ header ∈ answer.endpoint.headers,
    header ∈ servedHeaders answer → IsSendableHeader header

namespace Reply

variable {answer : Served} {t : Text}

theorem isSendableHeader_endpoint_iff : IsSendableHeader (endpointHeader, t) ↔ t.IsLatin := by
  have hname : ∀ c ∈ endpointHeader, (Text.latinLower? c).isSome = true := by decide
  exact and_iff_right hname

theorem isSendableHeader_scenario_iff : IsSendableHeader (scenarioHeader, t) ↔ t.IsLatin := by
  have hname : ∀ c ∈ scenarioHeader, (Text.latinLower? c).isSome = true := by decide
  exact and_iff_right hname

/-- The headers of an answer can be sent if all that they are made of can. -/
theorem forall_servedHeaders_iff :
    (∀ header ∈ servedHeaders answer, IsSendableHeader header) ↔
      answer.endpoint.path.IsLatin ∧
      (∀ scenario ∈ answer.selection.scenario?, Text.IsLatin scenario) ∧
      ∀ header ∈ answer.endpoint.headers, header ∈ servedHeaders answer →
        IsSendableHeader header := by
  rw [← Endpoint.isLatin_identity_iff]
  constructor
  · intro h
    refine ⟨?_, fun scenario hscenario ↦ ?_, fun header _ hheader ↦ h header hheader⟩
    · exact isSendableHeader_endpoint_iff.mp
        (h _ (Table.mem_of_get?_eq_some (get?_servedHeaders_endpoint answer)))
    · cases scenario with
      | nil => exact List.forall_mem_nil _
      | cons c rest =>
        have hget := get?_servedHeaders_scenario hscenario (List.cons_ne_nil c rest)
        exact isSendableHeader_scenario_iff.mp (h _ (Table.mem_of_get?_eq_some hget))
  · rintro ⟨hidentity, hscenario, hown⟩ header hheader
    rcases mem_servedHeaders hheader with howned | rfl | ⟨scenario, hmem, rfl⟩
    · exact hown header howned hheader
    · exact isSendableHeader_endpoint_iff.mpr hidentity
    · exact isSendableHeader_scenario_iff.mpr (hscenario scenario hmem)

end Reply

/-! ## Results of dispatching -/

namespace DispatchResult

/-- What a result brings into the body of its reply has no surrogates and no numbers that are not
finite. -/
def HasPlainContent : DispatchResult → Prop
  | notFound method url available =>
    method.IsEncodable ∧ url.IsEncodable ∧ ∀ identity ∈ available, identity.IsEncodable
  | served answer => match answer.body with
    | .ok body => body.HasFiniteNumbers ∧ body.HasEncodableTexts
    | .error (.notJson _ text _) => text.IsEncodable
    | .error (.notFound ..) => True

variable {settings : DispatchSettings} {registry : Registry} {request : DispatchRequest}
  {result : DispatchResult} {answer : Served}

/-- An answer of an endpoint in its fixed form has a status within the bounds. -/
theorem isStatus_of_dispatch (hformed : ∀ endpoint ∈ registry.endpoints, endpoint.WellFormed)
    (h : (Dispatch.dispatch settings registry request).value = .ok (.served answer)) :
    IsStatus answer.selection.response.status := by
  obtain ⟨⟨path, captures, hfind⟩, hselect, -⟩ := Dispatch.served_of_dispatch h
  obtain ⟨endpoint, hendpoint, hserve⟩ := List.exists_of_findSome?_eq_some hfind
  obtain rfl := Endpoint.eq_of_serve? hserve
  exact Endpoint.isStatus_of_select (hformed _ hendpoint) hselect

/-- Of a plain body, nothing but the headers can keep the reply from being sent. -/
theorem isSendable_iff_of_body {body : Value} (hbody : answer.body = .ok body)
    (hnested : body.NestedWithin Stack.writing) (hshort : body.HasShortIntegers)
    (hfinite : body.HasFiniteNumbers) (htexts : body.HasEncodableTexts) :
    (served answer).IsSendable ↔ answer.HasLatinHeaders := by
  have hsends := Value.sendsWithin_of_parts hnested hshort hfinite htexts
  have hok : answer.body.isOk = true := by
    rw [hbody]
    rfl
  simp only [IsSendable, hbody]
  rw [and_iff_left fun _ ↦ hsends, forall_servedHeaders_iff]
  constructor
  · rintro ⟨hpath, hscenario, hown⟩
    exact ⟨hpath, fun _ ↦ hscenario, fun _ ↦ hown⟩
  · intro hlatin
    exact ⟨hlatin.path, hlatin.scenario hok, hlatin.own hok⟩

/-- The same holds if the template gave no JSON. -/
theorem isSendable_iff_of_notJson {status : Nat} {text reason : Text}
    (herror : answer.body = .error (.notJson status text reason)) (hstatus : IsShort status)
    (htext : text.IsEncodable) (hreason : reason.IsEncodable) :
    (served answer).IsSendable ↔ answer.HasLatinHeaders := by
  have hok : answer.body.isOk ≠ true := by
    rw [herror]
    exact Bool.false_ne_true
  have hmessage : (DispatchError.notJson status text reason).message.IsEncodable := by
    unfold DispatchError.message
    dsimp only
    split <;> simp [hreason]
  have hdetails : ∀ entry ∈ (DispatchError.notJson status text reason).details,
      entry.1.IsEncodable ∧ entry.2.SendsWithin (Stack.writing - 1) := by
    simp [DispatchError.details, hstatus, htext]
  simp only [IsSendable, herror]
  rw [and_iff_left ⟨hmessage, hdetails⟩, isSendableHeader_endpoint_iff,
    Endpoint.isLatin_identity_iff]
  exact ⟨fun hpath ↦ ⟨hpath, fun h ↦ absurd h hok, fun h ↦ absurd h hok⟩, fun hlatin ↦ hlatin.path⟩

/-- Of a plain result, nothing but the headers can keep the reply from being sent. -/
theorem isSendable_iff (hformed : ∀ endpoint ∈ registry.endpoints, endpoint.WellFormed)
    (h : (Dispatch.dispatch settings registry request).value = .ok result)
    (hplain : result.HasPlainContent) :
    result.IsSendable ↔ ∀ answer, result = .served answer → answer.HasLatinHeaders := by
  cases result with
  | notFound method url available => exact iff_of_true hplain nofun
  | served answer =>
    simp only [served.injEq, forall_eq']
    obtain ⟨t, hok, hfault⟩ := Dispatch.exists_read_of_dispatch h
    unfold HasPlainContent at hplain
    cases hbody : answer.body with
    | ok body =>
      simp only [hbody] at hplain
      obtain ⟨hnested, hshort⟩ := Json.fits_of_read (hok body hbody)
      exact isSendable_iff_of_body hbody (hnested.mono Stack.reading_le_writing) hshort hplain.1
        hplain.2
    | error error =>
      obtain ⟨fault, hread, rfl⟩ := hfault error hbody
      simp only [hbody] at hplain
      refine isSendable_iff_of_notJson hbody (isStatus_of_dispatch hformed h).isShort hplain ?_
      cases hmessage : Json.faultMessage? t fault with
      | none => exact Text.isEncodable_nil
      | some message => exact Json.isEncodable_faultMessage? hread hmessage

/-- **Which results are replied to.** A result of dispatching to endpoints in their fixed form, with
neither surrogates nor numbers that are not finite in it, is replied to if and only if the path of
the endpoint and, unless the template gave no JSON, the name of the scenario and the headers that
the endpoint brings along are in Latin-1. The reply shows the result: the endpoint, the scenario,
the status and the body, or a status of its own if the template gave no JSON. -/
theorem ofResult_of_dispatch (hformed : ∀ endpoint ∈ registry.endpoints, endpoint.WellFormed)
    (h : (Dispatch.dispatch settings registry request).value = .ok result)
    (hplain : result.HasPlainContent) :
    ((∃ reply, ofResult result = .ok reply) ↔
      ∀ answer, result = .served answer → answer.HasLatinHeaders) ∧
    ∀ reply, ofResult result = .ok reply → result.ShownBy reply :=
  ⟨exists_ofResult_iff.trans (isSendable_iff hformed h hplain),
    fun _ ↦ shownBy_of_ofResult (isProper_of_dispatch hformed h)⟩

/-- A scenario with an umlaut in its name is told in the reply. -/
theorem ofResult_of_dispatch_umlaut :
    letI : Stack := .usual
    let scenario : Scenario := ⟨"Über", "true", 201, 0, "\x7b\x7d"⟩
    let endpoint : Endpoint :=
      ⟨"/a", .get, ⟨200, 0, "[]"⟩, [("X-A", "1")], [scenario], .text "t1", .text "t1"⟩
    let request : DispatchRequest := ⟨"GET", "/a", .null, .null, .null⟩
    let result := served ⟨endpoint, ⟨⟨201, 0, "\x7b\x7d"⟩, some "Über"⟩,
      ⟨.ofEntries [], .ofEntries [], .null⟩, .ok (.ofEntries [])⟩
    (∀ endpoint' ∈ [endpoint], endpoint'.WellFormed) ∧
      (Dispatch.dispatch ⟨[], .singlePass⟩ ⟨[endpoint]⟩ request).value = .ok result ∧
      result.HasPlainContent ∧ ∃ reply, ofResult result = .ok reply ∧ result.ShownBy reply := by
  intro scenario endpoint request result
  have hscenario : scenario.WellFormed := ⟨by decide, by decide⟩
  have hendpoint : endpoint.WellFormed :=
    ⟨rfl, rfl, by decide, fun _ h ↦ List.mem_singleton.mp h ▸ hscenario⟩
  have hformed : ∀ endpoint' ∈ [endpoint], endpoint'.WellFormed :=
    fun _ h ↦ List.mem_singleton.mp h ▸ hendpoint
  have hdispatch :
      (@Dispatch.dispatch .usual ⟨[], .singlePass⟩ ⟨[endpoint]⟩ request).value = .ok result := rfl
  have hplain : result.HasPlainContent :=
    ⟨Value.hasFiniteNumbers_object.mpr (List.forall_mem_nil _),
      Value.hasEncodableTexts_object.mpr (List.forall_mem_nil _)⟩
  obtain ⟨hsent, hshown⟩ := ofResult_of_dispatch hformed hdispatch hplain
  have hpath : Text.IsLatin "/a" := by decide
  have hname : Text.IsLatin "Über" := by decide
  have hheader : IsSendableHeader ("X-A", "1") := ⟨by decide, by decide⟩
  have hlatin : ∀ answer, result = .served answer → answer.HasLatinHeaders := by
    intro answer hanswer
    rw [← served.inj hanswer]
    exact ⟨hpath, fun _ _ h ↦ Option.some.inj h ▸ hname,
      fun _ _ h _ ↦ List.mem_singleton.mp h ▸ hheader⟩
  obtain ⟨reply, hreply⟩ := hsent.mpr hlatin
  exact ⟨hformed, hdispatch, hplain, reply, hreply, hshown reply hreply⟩

/-- An endpoint with a path beyond Latin-1 is accepted and answers, and there is no reply. -/
theorem ofResult_beyond_latin :
    letI : Stack := .usual
    let payload : Value := .ofEntries [("endpointId", .text "/日")]
    let endpoint : Endpoint := ⟨"/日", .get, .standard, [], [], .null, .null⟩
    let request : DispatchRequest := ⟨"GET", "/日", .null, .null, .null⟩
    let result := served ⟨endpoint, ⟨.standard, none⟩,
      ⟨.ofEntries [], .ofEntries [], .null⟩, .ok (.ofEntries [])⟩
    Endpoint.ofPayload payload = .ok endpoint ∧
      (Dispatch.dispatch ⟨[], .singlePass⟩ ⟨[endpoint]⟩ request).value = .ok result ∧
      result.HasPlainContent ∧ ∀ reply, ofResult result ≠ .ok reply := by
  intro payload endpoint request result
  have hplain : result.HasPlainContent :=
    ⟨Value.hasFiniteNumbers_object.mpr (List.forall_mem_nil _),
      Value.hasEncodableTexts_object.mpr (List.forall_mem_nil _)⟩
  have hreply : @ofResult .usual result = .error .notEncodable := rfl
  refine ⟨rfl, rfl, hplain, fun reply h ↦ ?_⟩
  rw [hreply] at h
  cases h

end DispatchResult

end MockApi
