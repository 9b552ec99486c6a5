import MockApi.Proofs.Route.Export
import MockApi.Proofs.Route.Stability
import MockApi.Proofs.Server.Reply
import MockApi.Server.Answer

/-!
# Registering a single endpoint

A payload that describes no endpoint leaves the server alone. One that describes an endpoint is
registered first, and the reply is made of what was stored. So if the stored endpoint cannot be
sent, it is registered all the same. Reading payloads is more permissive than sending them: a text
may hold surrogates, and the time of creation may be any value.
-/

namespace MockApi

variable {stack : Stack}

/-! ## Endpoints that can be sent -/

/-- A scenario that can be sent. -/
structure Scenario.IsSendable (scenario : Scenario) : Prop where
  /-- The name is free of surrogates. -/
  name : scenario.name.IsEncodable
  /-- The condition is free of surrogates. -/
  condition : scenario.condition.IsEncodable
  /-- The template is free of surrogates. -/
  template : scenario.template.IsEncodable
  /-- The delay has no more digits than the limit. -/
  delay : IsShort scenario.delay

/-- An endpoint that can be sent as part of a reply. -/
structure Endpoint.IsSendable [Stack] (endpoint : Endpoint) : Prop where
  /-- The path is free of surrogates. -/
  path : endpoint.path.IsEncodable
  /-- The template is free of surrogates. -/
  template : endpoint.response.template.IsEncodable
  /-- The delay has no more digits than the limit. -/
  delay : IsShort endpoint.response.delay
  /-- Names and values of headers are free of surrogates. -/
  headers : ∀ header ∈ endpoint.headers, header.1.IsEncodable ∧ header.2.IsEncodable
  /-- All scenarios can be sent. -/
  scenarios : ∀ scenario ∈ endpoint.scenarios, scenario.IsSendable
  /-- The time of creation can be sent inside an endpoint inside a reply. -/
  createdAt : endpoint.createdAt.SendsWithin (Stack.writing - 2)
  /-- The time of the last update can be sent inside an endpoint inside a reply. -/
  updatedAt : endpoint.updatedAt.SendsWithin (Stack.writing - 2)

theorem Method.isEncodable_name (method : Method) : method.name.IsEncodable := by
  cases method <;> decide

theorem IsStatus.isShort {n : Nat} (h : IsStatus n) : IsShort n :=
  (by decide : IsShort 599).mono h.2

namespace Scenario

variable {levels : Nat} {scenario : Scenario}

theorem sendsWithin_toPayload_iff (hlevels : 0 < levels) (h : scenario.WellFormed) :
    scenario.toPayload.SendsWithin levels ↔ scenario.IsSendable := by
  have hstatus := h.status.isShort
  rw [toPayload, Value.sendsWithin_ofEntries_iff hlevels]
  constructor
  · intro hentries
    simp only [List.forall_mem_cons, Value.sendsWithin_text, Value.sendsWithin_int] at hentries
    obtain ⟨⟨-, hname⟩, ⟨-, hcondition⟩, -, ⟨-, hdelay⟩, ⟨-, htemplate⟩, -⟩ := hentries
    exact ⟨hname, hcondition, htemplate, hdelay⟩
  · intro hsendable
    simp [hsendable.name, hsendable.condition, hsendable.template, hsendable.delay, hstatus]

end Scenario

namespace Endpoint

variable {endpoint : Endpoint}

theorem isEncodable_identity (endpoint : Endpoint) :
    endpoint.identity.IsEncodable ↔ endpoint.path.IsEncodable := by
  have hhyphen : Text.isSurrogate '-'.toNat = false := by decide
  rw [identity, identityOf, Method.toUpper_name, Text.isEncodable_append, Text.isEncodable_cons]
  exact and_iff_left ⟨hhyphen, endpoint.method.isEncodable_name⟩

theorem sendsWithin_toPayload_iff (h : endpoint.WellFormed) :
    endpoint.toPayload.SendsWithin (Stack.writing - 1) ↔ endpoint.IsSendable := by
  have hstatus := h.status.isShort
  have hroom : 8 ≤ Stack.writing := Stack.eight_le_writing
  have hheaders : (Value.ofEntries (endpoint.headers.map fun header ↦
      (header.1, .text header.2))).SendsWithin (Stack.writing - 2)
      ↔ ∀ header ∈ endpoint.headers, header.1.IsEncodable ∧ header.2.IsEncodable := by
    refine (Value.sendsWithin_ofEntries_iff (by omega)).trans (List.forall_mem_map.trans ?_)
    exact forall₂_congr fun header _ ↦ and_congr_right' Value.sendsWithin_text
  have hscenarios : (Value.ofItems (endpoint.scenarios.map Scenario.toPayload)).SendsWithin
      (Stack.writing - 2) ↔ ∀ scenario ∈ endpoint.scenarios, scenario.IsSendable := by
    refine (Value.sendsWithin_ofItems_iff (by omega)).trans (List.forall_mem_map.trans ?_)
    exact forall₂_congr fun scenario hscenario ↦
      Scenario.sendsWithin_toPayload_iff (by omega) (h.scenarios scenario hscenario)
  refine (Value.sendsWithin_ofEntries_iff (by omega)).trans ?_
  constructor
  · intro hentries
    simp only [List.forall_mem_cons, Value.sendsWithin_text, Value.sendsWithin_int] at hentries
    obtain ⟨-, ⟨-, hpath⟩, -, -, ⟨-, hdelay⟩, ⟨-, htemplate⟩, ⟨-, hsent⟩, ⟨-, hsent'⟩,
      ⟨-, hcreated⟩, ⟨-, hupdated⟩, -⟩ := hentries
    exact ⟨hpath, htemplate, hdelay, hheaders.mp hsent, hscenarios.mp hsent', hcreated, hupdated⟩
  · intro hsendable
    have hsent := hheaders.mpr hsendable.headers
    have hsent' := hscenarios.mpr hsendable.scenarios
    simp only [List.forall_mem_cons, Value.sendsWithin_text, Value.sendsWithin_int,
      Text.isEncodable_ofString, true_and]
    exact ⟨(isEncodable_identity endpoint).mpr hsendable.path, hsendable.path,
      endpoint.method.isEncodable_name, hstatus, hsendable.delay, hsendable.template, hsent, hsent',
      hsendable.createdAt, hsendable.updatedAt, List.forall_mem_nil _⟩

end Endpoint

namespace Server

variable {clock : Clock} {server : Server} {request : HttpRequest} {payload : Value}
  {endpoint : Endpoint}

/-- The content of the reply on an endpoint that was registered. -/
def saveReport (created : Bool) (stored : Endpoint) : Value :=
  .ofEntries [("message", .text ("Endpoint " ++ stored.path ++ " (" ++ stored.method.name
    ++ ") saved successfully.")), ("created", .bool created), ("endpoint", stored.toPayload)]

theorem answer_of_save [Framework] (clock : Clock)
    (hasked : server.adminAction? request = some .save) (hcontent : request.content = .ok payload) :
    server.answer clock request
      = ((server.save clock payload).1, ⟨[], (server.save clock payload).2⟩) := by
  rw [answer_of_asked hasked, administer, withContent_of_ok hcontent]

theorem sendsWithin_saveReport_iff {created : Bool} {stored : Endpoint} (h : stored.WellFormed) :
    (saveReport created stored).SendsWithin Stack.writing ↔ stored.IsSendable := by
  have hroom : 8 ≤ Stack.writing := Stack.eight_le_writing
  rw [← Endpoint.sendsWithin_toPayload_iff h]
  refine (Value.sendsWithin_ofEntries_iff (by omega)).trans ?_
  -- the message repeats nothing but the path and the method, so the endpoint decides
  constructor
  · intro hentries
    exact (hentries ("endpoint", stored.toPayload) (by simp)).2
  · intro hendpoint
    have hpath := ((Endpoint.sendsWithin_toPayload_iff h).mp hendpoint).path
    simp only [List.forall_mem_cons, Value.sendsWithin_text, Text.isEncodable_append,
      Text.isEncodable_ofString, Value.sendsWithin_bool, true_and, and_true]
    exact ⟨⟨hpath, stored.method.isEncodable_name⟩, hendpoint, List.forall_mem_nil _⟩

/-- What registering a payload that describes an endpoint comes to. -/
theorem save_of_ofPayload (h : Endpoint.ofPayload payload = .ok endpoint) (clock : Clock)
    (server : Server) :
    let now := clock.stamp (server.readings + 1)
    let stored := Registry.stamped endpoint (server.registry.get? endpoint.identity) now
    let created := !server.registry.contains endpoint.identity
    server.save clock payload
      = ({ server with
          registry := server.registry.upsert endpoint now
          readings := server.readings + 1 },
        Reply.json (if created then 201 else 200) [] (saveReport created stored)) := by
  rw [save, h]
  dsimp only
  rw [Registry.save_eq, saveReport]

/-- **Registering one endpoint.** A request whose content describes no endpoint leaves the server
alone. Otherwise the endpoint is registered, and it is registered whether or not there is a reply:
there is one, with status 201 for a new identity and 200 for a known one, if and only if the stored
endpoint can be sent. -/
theorem answer_save [Framework] (hasked : server.adminAction? request = some .save) :
    ((∀ payload endpoint, request.content = .ok payload →
        Endpoint.ofPayload payload ≠ .ok endpoint) →
      (server.answer clock request).1 = server) ∧
    ∀ payload endpoint, request.content = .ok payload → Endpoint.ofPayload payload = .ok endpoint →
      ∃ saved outcome stored created,
        server.answer clock request = (saved, ⟨[], outcome⟩) ∧
        server.registry.save endpoint (clock.stamp (server.readings + 1))
          = (saved.registry, stored, created) ∧
        saved.registry.get? endpoint.identity = some stored ∧
        ((∃ reply, outcome = .ok reply) ↔ stored.IsSendable) ∧
        ∀ reply, outcome = .ok reply →
          reply.Carries (if created then 201 else 200) (saveReport created stored) := by
  constructor
  · intro hnone
    cases hcontent : request.content with
    | error failure =>
      rw [answer_of_asked hasked, administer, withContent, hcontent]
    | ok payload =>
      rw [answer_of_save clock hasked hcontent, save]
      split
      · rfl
      · rfl
      · rename_i endpoint hendpoint
        exact absurd hendpoint (hnone payload endpoint hcontent)
  · intro payload endpoint hcontent hendpoint
    have hanswer := answer_of_save clock hasked hcontent
    rw [save_of_ofPayload hendpoint] at hanswer
    have hformed := Registry.wellFormed_stamped (Endpoint.wellFormed_of_ofPayload hendpoint)
      (server.registry.get? endpoint.identity) (clock.stamp (server.readings + 1))
    refine ⟨_, _, _, _, hanswer, Registry.save_eq .., ?_, ?_, fun reply ↦ Reply.carries_of_json⟩
    · rw [Registry.get?_upsert, if_pos rfl]
    · rw [Reply.exists_json_eq_ok_iff, sendsWithin_saveReport_iff hformed]

/-- An endpoint with little to it is registered as new, and the reply shows how it is stored. -/
theorem answer_save_new :
    letI : Stack := .usual
    letI : Framework := .bare
    let clock : Clock := .stopped "2020-01-01"
    let settings : Settings :=
      ⟨Options.default, .singlePass, .firstMatch, "info", .info, 3000, "/__admin__", []⟩
    let server : Server := ⟨settings, .empty, .zero clock.now, 0⟩
    let request : HttpRequest := ⟨"POST", "/__admin__/endpoints", [],
      Text.ofString "\x7b\"endpointId\":\"a\"\x7d"⟩
    let stored : Endpoint := ⟨"/a", .get, ⟨200, 0, "\x7b\x7d"⟩, [], [], .text "2020-01-01",
      .text "2020-01-01"⟩
    ∃ saved reply, server.answer clock request = (saved, ⟨[], .ok reply⟩) ∧
      saved.registry = ⟨[stored]⟩ ∧ reply.Carries 201 (saveReport true stored) := by
  intro clock settings server request stored
  let framework : Framework := .bare
  let endpoint : Endpoint := ⟨"/a", .get, ⟨200, 0, "\x7b\x7d"⟩, [], [], .null, .null⟩
  have hasked : server.adminAction? request = some .save := by decide
  have hcontent : @HttpRequest.content .usual request =
      .ok (.ofEntries [("endpointId", .text "a")]) := by
    let stack : Stack := .usual
    refine HttpRequest.content_of_read (List.cons_ne_nil _ _) (t := request.body) (by decide) ?_
    simp only [request]
    cbv
  have hendpoint : @Endpoint.ofPayload .usual (.ofEntries [("endpointId", .text "a")]) =
      .ok endpoint := rfl
  have hsave : server.registry.save endpoint (clock.stamp (server.readings + 1))
      = (⟨[stored]⟩, stored, true) := rfl
  let stack : Stack := .usual
  have hsendable : stored.IsSendable :=
    ⟨by decide, by decide, by decide, List.forall_mem_nil _, List.forall_mem_nil _,
      Value.sendsWithin_text.mpr (by decide), Value.sendsWithin_text.mpr (by decide)⟩
  obtain ⟨saved, outcome, stored', created, hanswer, hsaved, -, hreply, hcarries⟩ :=
    (answer_save hasked).2 _ endpoint hcontent hendpoint
  rw [hsave, Prod.mk.injEq, Prod.mk.injEq] at hsaved
  obtain ⟨hregistry, rfl, rfl⟩ := hsaved
  obtain ⟨reply, rfl⟩ := hreply.mpr hsendable
  exact ⟨saved, reply, hanswer, hregistry.symm, hcarries reply rfl⟩

/-- An endpoint whose time of creation is no number is registered without a reply. -/
theorem answer_save_nan :
    letI : Stack := .usual
    letI : Framework := .bare
    let clock : Clock := .stopped "2020-01-01"
    let settings : Settings :=
      ⟨Options.default, .singlePass, .firstMatch, "info", .info, 3000, "/__admin__", []⟩
    let server : Server := ⟨settings, .empty, .zero clock.now, 0⟩
    let request : HttpRequest := ⟨"POST", "/__admin__/endpoints", [],
      Text.ofString "\x7b\"endpointId\":\"/a\",\"createdAt\":NaN\x7d"⟩
    (∀ reply, (server.answer clock request).2.value ≠ .ok reply) ∧
      server.registry.identities = [] ∧
      (server.answer clock request).1.registry.identities = ["/a-GET"] := by
  intro clock settings server request
  let framework : Framework := .bare
  let payload : Value := .ofEntries [("endpointId", .text "/a"), ("createdAt", .double .nan)]
  let endpoint : Endpoint := ⟨"/a", .get, ⟨200, 0, "\x7b\x7d"⟩, [], [], .double .nan, .null⟩
  have hasked : server.adminAction? request = some .save := by decide
  have hcontent : @HttpRequest.content .usual request = .ok payload := by
    let stack : Stack := .usual
    refine HttpRequest.content_of_read (List.cons_ne_nil _ _) (t := request.body) (by decide) ?_
    simp only [request, payload]
    cbv
  have hendpoint : @Endpoint.ofPayload .usual payload = .ok endpoint := rfl
  rw [answer_of_save clock hasked hcontent, save_of_ofPayload hendpoint]
  -- the registry is the same with and without a reply, so only the reply takes an argument
  refine ⟨fun reply hreply ↦ ?_, rfl, rfl⟩
  have hsent := Reply.exists_json_eq_ok_iff.mp ⟨reply, hreply⟩
  have hformed := Registry.wellFormed_stamped (Endpoint.wellFormed_of_ofPayload hendpoint)
    (server.registry.get? endpoint.identity) (clock.stamp (server.readings + 1))
  let stack : Stack := .usual
  have hnan : (Value.double .nan).SendsWithin (Stack.writing - 2) :=
    ((sendsWithin_saveReport_iff hformed).mp hsent).createdAt
  cases hnan.1

end Server

end MockApi
