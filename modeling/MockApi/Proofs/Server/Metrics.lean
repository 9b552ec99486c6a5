import MockApi.Proofs.Route.Results
import MockApi.Proofs.Server.Run
import MockApi.Proofs.Server.Save

/-!
# Metrics tally the history

The metrics of a server are those of a history: the requests that were dispatched with a result
since the server started or was last reset. A request is added to the history when its dispatch has
a result, and not when its reply is made. So the history counts requests that never see a reply, and
the metrics do as well.

Each answer keeps the tally, and so does each run.
-/

namespace MockApi

variable {stack : Stack}

/-- A request that was dispatched with a result, and what was made of it for a reply. -/
structure Dispatched where
  /-- The method of the request. -/
  method : Text
  /-- The result of its dispatch. -/
  result : DispatchResult
  /-- The reply to it. -/
  reply : Except ServiceFailure Reply

namespace DispatchResult

/-- Whether an endpoint answered. -/
def isServed : DispatchResult → Bool
  | served _ => true
  | notFound .. => false

/-- Whether an endpoint answered with a text that is no JSON. -/
def isNotJson : DispatchResult → Bool
  | served answer => !answer.body.isOk
  | notFound .. => false

theorem isServed_of_isNotJson {result : DispatchResult} (h : result.isNotJson = true) :
    result.isServed = true := by
  cases result with
  | served answer => rfl
  | notFound method url available => cases h

end DispatchResult

/-! ## Tallies -/

/-- The sum of counts under names. -/
def Metrics.sumByMethod (metrics : Metrics) : Nat := (metrics.byMethod.map Prod.snd).sum

/-- Metrics are those of a history. -/
structure Metrics.Tallies (metrics : Metrics) (history : List Dispatched) : Prop where
  /-- All requests are counted. -/
  total : metrics.total = history.length
  /-- Those that an endpoint answered are. -/
  matched : metrics.matched = history.countP (·.result.isServed)
  /-- Those that no endpoint answered are. -/
  unmatched : metrics.unmatched = history.countP (!·.result.isServed)
  /-- Those answered with a text that is no JSON are. -/
  renderErrors : metrics.renderErrors = history.countP (·.result.isNotJson)
  /-- All requests are counted by method. -/
  byMethod : ∀ name, (metrics.byMethod.get? name).getD 0 = history.countP (·.method = name)
  /-- The counts by method add up. -/
  sum : metrics.sumByMethod = history.length

namespace Metrics

variable {metrics : Metrics} {history : List Dispatched}

theorem tallies_zero (start : Text) : (zero start).Tallies [] :=
  ⟨rfl, rfl, rfl, rfl, fun _ ↦ rfl, rfl⟩

theorem sum_countIn (counts : Table Nat) (name : Text) :
    ((countIn counts name).map Prod.snd).sum = (counts.map Prod.snd).sum + 1 := by
  suffices hinsert : ∀ n, ((counts.insert name n).map Prod.snd).sum + (counts.get? name).getD 0 =
      (counts.map Prod.snd).sum + n by
    have h := hinsert ((counts.get? name).getD 0 + 1)
    unfold countIn
    omega
  intro n
  induction counts with
  | nil => simp [Table.insert, Table.get?]
  | cons entry counts ih =>
    obtain ⟨k, m⟩ := entry
    by_cases hk : k = name
    · simp only [Table.insert, Table.get?, hk, if_true, List.map_cons, List.sum_cons,
        List.lookup_cons_self, Option.getD_some]
      omega
    · have hne : (name == k) = false := by simpa using Ne.symm hk
      simp only [Table.insert, Table.get?, if_neg hk, List.map_cons, List.sum_cons,
        List.lookup_cons, hne] at ih ⊢
      omega

theorem getD_countIn (counts : Table Nat) (name other : Text) :
    ((countIn counts name).get? other).getD 0 =
      (counts.get? other).getD 0 + if name = other then 1 else 0 := by
  rw [countIn, Table.get?_insert]
  by_cases h : name = other
  · simp [h]
  · simp [h, Ne.symm h]

/-- One more result is counted among its like, and its method is. -/
theorem Tallies.record (h : metrics.Tallies history) (entry : Dispatched) :
    (metrics.record entry.method entry.result).Tallies (history ++ [entry]) := by
  obtain ⟨method, result, reply⟩ := entry
  have hbyMethod (name : Text) : ((countIn metrics.byMethod method).get? name).getD 0 =
      (history ++ [Dispatched.mk method result reply]).countP (·.method = name) := by
    rw [getD_countIn, h.byMethod, List.countP_append, List.countP_singleton]
    simp
  have hsum : ((countIn metrics.byMethod method).map Prod.snd).sum =
      (history ++ [Dispatched.mk method result reply]).length := by
    rw [sum_countIn, List.length_append]
    exact congrArg (· + 1) h.sum
  cases result with
  | notFound m url available =>
    refine ⟨?_, ?_, ?_, ?_, hbyMethod, hsum⟩ <;>
      simp [Metrics.record, h.total, h.matched, h.unmatched, h.renderErrors,
        DispatchResult.isServed, DispatchResult.isNotJson]
  | served answer =>
    cases hbody : answer.body with
    | ok body =>
      have hrecord : metrics.record method (.served answer) = { metrics with
          total := metrics.total + 1
          byMethod := countIn metrics.byMethod method
          matched := metrics.matched + 1 } := by
        simp [Metrics.record, hbody]
      rw [hrecord]
      refine ⟨?_, ?_, ?_, ?_, hbyMethod, hsum⟩ <;>
        simp [h.total, h.matched, h.unmatched, h.renderErrors,
          DispatchResult.isServed, DispatchResult.isNotJson, hbody, Except.isOk, Except.toBool]
    | error error =>
      have hrecord : metrics.record method (.served answer) = { metrics with
          total := metrics.total + 1
          byMethod := countIn metrics.byMethod method
          matched := metrics.matched + 1
          renderErrors := metrics.renderErrors + 1 } := by
        simp [Metrics.record, hbody]
      rw [hrecord]
      refine ⟨?_, ?_, ?_, ?_, hbyMethod, hsum⟩ <;>
        simp [h.total, h.matched, h.unmatched, h.renderErrors,
          DispatchResult.isServed, DispatchResult.isNotJson, hbody, Except.isOk, Except.toBool]

/-- Every request in a history is either answered or not. -/
theorem Tallies.matched_add_unmatched (h : metrics.Tallies history) :
    metrics.total = metrics.matched + metrics.unmatched := by
  rw [h.total, h.matched, h.unmatched, List.length_eq_countP_add_countP (·.result.isServed)]
  simp

theorem Tallies.renderErrors_le (h : metrics.Tallies history) :
    metrics.renderErrors ≤ metrics.matched := by
  rw [h.renderErrors, h.matched]
  exact List.countP_mono_left fun _ _ ↦ DispatchResult.isServed_of_isNotJson

end Metrics

/-! ## Replies that nothing was found -/

/-- What is told about a request that no endpoint answers. -/
def Reply.notFoundReport (method url : Text) (available : List Text) : Value :=
  .ofEntries [("error", .text (DispatchError.notFound method url available).message),
    ("availableEndpoints", .ofItems (available.map .text))]

/-- It can be told unless there are surrogates in what it repeats. -/
theorem Reply.exists_ofResult_notFound_iff {method url : Text} {available : List Text} :
    (∃ reply, ofResult (.notFound method url available) = .ok reply) ↔
      method.IsEncodable ∧ url.IsEncodable ∧ ∀ identity ∈ available, identity.IsEncodable := by
  have hroom : 8 ≤ Stack.writing := Stack.eight_le_writing
  have hitems : (Value.ofItems (available.map .text)).SendsWithin (Stack.writing - 1) ↔
      ∀ identity ∈ available, identity.IsEncodable := by
    refine (Value.sendsWithin_ofItems_iff (by omega)).trans (List.forall_mem_map.trans ?_)
    exact forall₂_congr fun identity _ ↦ Value.sendsWithin_text
  refine exists_json_eq_ok_iff.trans ((Value.sendsWithin_ofEntries_iff (by omega)).trans ?_)
  simp only [List.forall_mem_cons, Value.sendsWithin_text, Text.isEncodable_ofString,
    DispatchError.isEncodable_message_notFound, true_and]
  constructor
  · rintro ⟨⟨hmethod, hurl⟩, havailable, -⟩
    exact ⟨hmethod, hurl, hitems.mp havailable⟩
  · rintro ⟨hmethod, hurl, havailable⟩
    exact ⟨⟨hmethod, hurl⟩, hitems.mpr havailable, List.forall_mem_nil _⟩

/-! ## Histories of runs -/

namespace Server

/-- The result of dispatching a request to the endpoints of a server, if there is one. -/
def result? [Stack] (server : Server) (request : HttpRequest) : Option DispatchResult := do
  let body ← request.content.toOption
  (Dispatch.dispatch server.settings.dispatch server.registry
    ⟨request.method, request.target, .null, .null, body⟩).value.toOption

/-- A request that has a result is counted and replied to with it. -/
theorem respond_of_result?_eq_some {server : Server} {request : HttpRequest}
    {result : DispatchResult} (h : server.result? request = some result) :
    (server.respond request).1 =
        { server with metrics := server.metrics.record request.method result } ∧
      (server.respond request).2.value = Reply.ofResult result := by
  obtain ⟨body, hbody, hresult⟩ := Option.bind_eq_some_iff.mp h
  have hcontent : request.content = .ok body := by
    cases hc : request.content <;> simp_all [Except.toOption]
  have hvalue : (Dispatch.dispatch server.settings.dispatch server.registry
      ⟨request.method, request.target, .null, .null, body⟩).value = .ok result := by
    revert hresult
    cases (Dispatch.dispatch server.settings.dispatch server.registry
      ⟨request.method, request.target, .null, .null, body⟩).value <;> simp [Except.toOption]
  rw [respond, withContent_of_ok hcontent]
  simp only [hvalue, and_self]

/-- A request without a result is not counted. -/
theorem respond_of_result?_eq_none {server : Server} {request : HttpRequest}
    (h : server.result? request = none) : (server.respond request).1 = server := by
  unfold respond withContent
  cases hcontent : request.content with
  | error failure => rfl
  | ok body =>
    dsimp only
    split
    · rfl
    · rename_i result hvalue
      simp [result?, hcontent, hvalue, Except.toOption] at h

section

variable [Framework]

/-- What a request adds to the history of a server: nothing if it asks for administration, or is
left to the framework, or if its dispatch has no result. -/
def dispatched? [Stack] (clock : Clock) (server : Server) (request : HttpRequest) :
    Option Dispatched :=
  if (server.adminAction? request).isSome || !request.isForEndpoints then none
  else (server.result? request).map fun result ↦
    ⟨request.method, result, (server.answer clock request).2.value⟩

/-- The history of a server after a request; a reset starts a new one. -/
def remember [Stack] (clock : Clock) (server : Server) (history : List Dispatched)
    (request : HttpRequest) : List Dispatched :=
  if server.adminAction? request = some .reset then []
  else history ++ (server.dispatched? clock request).toList

/-- The history of a server after a run. -/
def history [Stack] (server : Server) (past : List Dispatched) :
    List (Clock × HttpRequest) → List Dispatched
  | [] => past
  | (clock, request) :: run =>
    (server.answer clock request).1.history (server.remember clock past request) run

/-- Administration leaves the metrics alone unless it is a reset. -/
theorem metrics_answer_of_asked {server : Server} {request : HttpRequest} {action : AdminAction}
    (h : server.adminAction? request = some action) (clock : Clock) :
    (server.answer clock request).1.metrics =
      if action = .reset then .zero clock.now else server.metrics := by
  rw [answer_of_asked h]
  split
  · rename_i hreset
    rw [hreset]
    exact reset_metrics clock server
  · rename_i hother
    exact (keeps_administer clock server request hother).2

/-- An answer keeps the tally of the history. -/
theorem tallies_answer {server : Server} {past : List Dispatched}
    (h : server.metrics.Tallies past) (clock : Clock) (request : HttpRequest) :
    (server.answer clock request).1.metrics.Tallies (server.remember clock past request) := by
  cases hasked : server.adminAction? request with
  | some action =>
    have hnothing : server.dispatched? clock request = none := by simp [dispatched?, hasked]
    rw [metrics_answer_of_asked hasked, remember, hasked, hnothing]
    by_cases hreset : action = .reset
    · rw [if_pos hreset, if_pos (congrArg some hreset)]
      exact Metrics.tallies_zero clock.now
    · rw [if_neg hreset, if_neg fun heq ↦ hreset (Option.some.inj heq)]
      simpa using h
  | none =>
    have hnot : server.adminAction? request ≠ some .reset := by simp [hasked]
    rw [remember, if_neg hnot]
    cases hendpoints : request.isForEndpoints with
    | false =>
      have hnothing : server.dispatched? clock request = none := by
        simp [dispatched?, hendpoints]
      rw [answer_of_not_isForEndpoints hasked hendpoints, hnothing]
      simpa using h
    | true =>
      have hanswer := answer_of_isForEndpoints hasked hendpoints clock
      have hentry : server.dispatched? clock request = (server.result? request).map fun result ↦
          ⟨request.method, result, (server.answer clock request).2.value⟩ := by
        simp [dispatched?, hasked, hendpoints]
      rw [hentry, hanswer]
      cases hresult : server.result? request with
      | none =>
        rw [respond_of_result?_eq_none hresult]
        simpa using h
      | some result =>
        rw [(respond_of_result?_eq_some hresult).1]
        exact h.record ⟨request.method, result, _⟩

/-- A run keeps the tally of the history. -/
theorem tallies_answerEach {server : Server} {past : List Dispatched}
    (h : server.metrics.Tallies past) (run : List (Clock × HttpRequest)) :
    (server.answerEach run).1.metrics.Tallies (server.history past run) := by
  induction run generalizing server past with
  | nil => exact h
  | cons step run ih => exact ih (tallies_answer h step.1 step.2)

theorem reply_of_dispatched? {clock : Clock} {server : Server} {request : HttpRequest}
    {entry : Dispatched} (h : server.dispatched? clock request = some entry) :
    entry.reply = Reply.ofResult entry.result := by
  unfold dispatched? at h
  split at h
  · cases h
  · rename_i hroute
    obtain ⟨hasked, hendpoints⟩ : server.adminAction? request = none ∧
        request.isForEndpoints = true := by simpa using hroute
    rw [answer_of_isForEndpoints hasked hendpoints] at h
    obtain ⟨result, hresult, rfl⟩ := Option.map_eq_some_iff.mp h
    exact (respond_of_result?_eq_some hresult).2

/-- Every request in a history was replied to with its result. -/
theorem reply_of_mem_history {server : Server} {past : List Dispatched}
    (hpast : ∀ entry ∈ past, entry.reply = Reply.ofResult entry.result)
    (run : List (Clock × HttpRequest)) :
    ∀ entry ∈ server.history past run, entry.reply = Reply.ofResult entry.result := by
  induction run generalizing server past with
  | nil => exact hpast
  | cons step run ih =>
    refine ih fun entry hentry ↦ ?_
    unfold remember at hentry
    split at hentry
    · exact absurd hentry List.not_mem_nil
    · rcases List.mem_append.mp hentry with hentry | hentry
      · exact hpast entry hentry
      · exact reply_of_dispatched? (Option.mem_toList.mp hentry)

end

/-- A server starts with nothing counted. -/
theorem metrics_start [YamlLibrary] {clock : Clock} {files : File.Files} {settings : Settings}
    {server : Server} (h : start clock files settings = .ok server) :
    server.metrics = .zero clock.now := by
  obtain ⟨paths, -, h⟩ := bind_eq_ok_iff.mp h
  obtain ⟨endpoints, -, h⟩ := bind_eq_ok_iff.mp h
  rw [← Except.ok.inj h, upsertAll_metrics, reset_metrics]

/-- **Metrics balance over whole runs.** Whatever a server was asked since it started, its metrics
tally the requests that were dispatched with a result since then or since the last reset. Those
without an endpoint are replied to with status 404, provided that the reply can be sent, and are
counted as unmatched even if not. Administration changes no count, except for a reset, after which
nothing is counted. -/
theorem metrics_balance [YamlLibrary] [Framework] {clock : Clock} {files : File.Files}
    {settings : Settings} {server : Server} (hstart : start clock files settings = .ok server)
    (run : List (Clock × HttpRequest)) :
    let after := (server.answerEach run).1
    let history := server.history [] run
    after.metrics.Tallies history ∧
      after.metrics.total = after.metrics.matched + after.metrics.unmatched ∧
      after.metrics.total = after.metrics.sumByMethod ∧
      after.metrics.renderErrors ≤ after.metrics.matched ∧
      (∀ entry ∈ history, entry.reply = Reply.ofResult entry.result ∧
        ∀ method url available, entry.result = .notFound method url available →
          ((∃ reply, entry.reply = .ok reply) ↔
            method.IsEncodable ∧ url.IsEncodable ∧ ∀ identity ∈ available, identity.IsEncodable) ∧
          ∀ reply, entry.reply = .ok reply →
            reply.Carries 404 (Reply.notFoundReport method url available)) ∧
      ∀ clock request action, after.adminAction? request = some action →
        (after.answer clock request).1.metrics =
          if action = .reset then .zero clock.now else after.metrics := by
  intro after history
  have htallies : after.metrics.Tallies history :=
    tallies_answerEach (metrics_start hstart ▸ Metrics.tallies_zero clock.now) run
  refine ⟨htallies, htallies.matched_add_unmatched, htallies.total.trans htallies.sum.symm,
    htallies.renderErrors_le, fun entry hentry ↦ ?_, fun clock request action hasked ↦
    metrics_answer_of_asked hasked clock⟩
  have hreply := reply_of_mem_history (List.forall_mem_nil _) run entry hentry
  refine ⟨hreply, fun method url available hresult ↦ ?_⟩
  rw [hreply, hresult]
  exact ⟨Reply.exists_ofResult_notFound_iff, fun reply ↦ Reply.carries_of_json⟩

/-- A server without endpoints counts a request, and reads of the metrics and rehearsals do not
count. -/
theorem metrics_balance_rehearsal :
    letI : Stack := .usual
    letI : YamlLibrary := .bare
    letI : Framework := .bare
    let clock : Clock := .stopped "2020-01-01"
    let settings : Settings := ⟨Options.default.set .seedDemo (.bool false), .singlePass,
      .firstMatch, "info", .info, 3000, "/__admin__", []⟩
    let server : Server := ⟨settings, .empty, .zero clock.now, 0⟩
    let run : List (Clock × HttpRequest) := [(clock, ⟨"GET", "/x", [], []⟩),
      (clock, ⟨"GET", "/__admin__/metrics", [], []⟩), (clock, ⟨"POST", "/__admin__/test", [], []⟩)]
    start clock [] settings = .ok server ∧
      (server.answerEach run).1.metrics.total = 1 ∧
      (server.answerEach run).1.metrics.unmatched = 1 ∧
      (server.answerEach run).1.metrics.sumByMethod = 1 := by
  intro clock settings server run
  let stack : Stack := .usual
  let library : YamlLibrary := .bare
  let framework : Framework := .bare
  have hstart : start clock [] settings = .ok server := rfl
  have hlength : (server.history [] run).length = 1 := by decide +kernel
  have hcount : (server.history [] run).countP (!·.result.isServed) = 1 := by
    decide +kernel
  obtain ⟨htallies, -, hsum, -⟩ := metrics_balance hstart run
  have htotal := htallies.total.trans hlength
  exact ⟨hstart, htotal, htallies.unmatched.trans hcount, hsum.symm.trans htotal⟩

/-- A request without an endpoint is counted as unmatched even if it is never replied to. -/
theorem metrics_unmatched_unsent :
    letI : Stack := .usual
    letI : YamlLibrary := .bare
    letI : Framework := .bare
    let clock : Clock := .stopped "2020-01-01"
    let settings : Settings := ⟨Options.default.set .seedDemo (.bool false), .singlePass,
      .firstMatch, "info", .info, 3000, "/__admin__", []⟩
    let server : Server := ⟨settings, .empty, .zero clock.now, 0⟩
    let run : List (Clock × HttpRequest) := [(clock, ⟨"POST", "/__admin__/endpoints", [],
        Text.ofString "\x7b\"endpointId\":\"/\\ud800\"\x7d"⟩), (clock, ⟨"GET", "/x", [], []⟩)]
    start clock [] settings = .ok server ∧
      (server.answerEach run).1.metrics.unmatched = 1 ∧
      ∀ outcome ∈ (server.answerEach run).2, ∀ reply, outcome.value = .ok reply →
        reply.status ≠ 404 := by
  intro clock settings server run
  let stack : Stack := .usual
  let library : YamlLibrary := .bare
  let framework : Framework := .bare
  let save : HttpRequest := ⟨"POST", "/__admin__/endpoints", [],
    Text.ofString "\x7b\"endpointId\":\"/\\ud800\"\x7d"⟩
  let path : Text := ['/'.toNat, 0xD800]
  let payload : Value := .ofEntries [("endpointId", .text path)]
  let endpoint : Endpoint := ⟨path, .get, ⟨200, 0, "\x7b\x7d"⟩, [], [], .null, .null⟩
  let get : HttpRequest := ⟨"GET", "/x", [], []⟩
  have hasked : server.adminAction? save = some .save := by decide
  have hcontent : save.content = .ok payload := by
    refine HttpRequest.content_of_read (List.cons_ne_nil _ _) (t := save.body) (by decide) ?_
    simp only [save, path, payload]
    cbv
  have hendpoint : Endpoint.ofPayload payload = .ok endpoint := rfl
  let stored := Registry.stamped endpoint none "2020-01-01"
  let saved : Server := ⟨settings, ⟨[stored]⟩, .zero clock.now, 1⟩
  have hsave : server.answer clock save =
      (saved, ⟨[], Reply.json 201 [] (saveReport true stored)⟩) := by
    rw [answer_of_save clock hasked hcontent, save_of_ofPayload hendpoint]
    rfl
  have hget : saved.answer clock get = saved.respond get := rfl
  have hresult : saved.result? get = some (.notFound "GET" "/x" [endpoint.identity]) := rfl
  obtain ⟨hrespond, hreply⟩ := respond_of_result?_eq_some hresult
  have hrun : server.answerEach run = ((saved.respond get).1,
      [⟨[], Reply.json 201 [] (saveReport true stored)⟩, (saved.respond get).2]) := by
    rw [← hget]
    refine (answerEach_cons hsave [(clock, get)]).trans ?_
    rw [answerEach_cons (Prod.eta (saved.answer clock get)).symm, answerEach]
  rw [hrun, hrespond]
  refine ⟨rfl, rfl, fun outcome houtcome reply hsent ↦ ?_⟩
  rcases List.mem_pair.mp houtcome with rfl | rfl
  · rw [Reply.status_of_json hsent]
    decide
  · have hsendable := Reply.exists_ofResult_notFound_iff.mp ⟨reply, hreply.symm.trans hsent⟩
    have hidentity := hsendable.2.2 endpoint.identity List.mem_cons_self
    exact absurd hidentity (by decide)

end Server

end MockApi
