import Mathlib
import MockApi.Proofs.Server.Form
import MockApi.Proofs.Server.Showing

/-!
# Trying requests out

A request that is tried out is dispatched like the request itself, and the report on it tells what
the reply to the request shows. The two differ in where the URL comes from. A request is sent to a
target, whose path is decoded before the server makes a URL of it again, while a request to be tried
out is described with a URL that is taken as it stands. So the URL to describe is the one that the
server makes, and a target is that URL only if there is nothing to decode in its path.
-/

namespace MockApi

variable {stack : Stack}

open DispatchResult

/-! ## Describing requests -/

/-- A payload describes a request by its method, its URL and its body, without parameters given
explicitly. -/
structure Entries.Describes (payload : Entries) (method url : Text) (body : Value) : Prop where
  /-- The method is given, or it is the default. -/
  method_eq : (payload.get? "method").getD (.text "GET") = .text method
  /-- The URL is given. -/
  url_eq : payload.get? "url" = some (.text url)
  /-- The body is given, or it is the default. -/
  body_eq : (payload.get? "body").getD (.ofEntries []) = body
  /-- No path parameters are given. -/
  path_vacant : ((payload.get? "pathParams").getD .null).isVacant = true
  /-- No query parameters are given. -/
  query_vacant : ((payload.get? "queryParams").getD .null).isVacant = true

namespace Server

variable {payload : Entries} {method url : Text} {body : Value} {identity : Nat}

theorem exists_rehearsalParameters {name : Text}
    (h : ((payload.get? name).getD .null).isVacant = true) :
    ∃ parameters, rehearsalParameters payload name = .ok parameters ∧
      DispatchRequest.explicitEntries parameters = .ok [] := by
  unfold rehearsalParameters
  split
  · rename_i identity entries hvalue
    rw [hvalue] at h
    obtain rfl : entries = [] := List.isEmpty_iff.mp h
    exact ⟨_, rfl, rfl⟩
  · exact ⟨_, if_pos h, rfl⟩

/-- What is described is dispatched as it is described. -/
theorem exists_rehearsal_eq_ok (h : payload.Describes method url body) (hurl : url ≠ [])
    (identity : Nat) :
    ∃ path query,
      rehearsal (.object identity payload) = .ok (.ok ⟨method, url, path, query, body⟩) ∧
      DispatchRequest.explicitEntries path = .ok [] ∧
      DispatchRequest.explicitEntries query = .ok [] := by
  obtain ⟨path, hpath, hpathEntries⟩ := exists_rehearsalParameters h.path_vacant
  obtain ⟨query, hquery, hqueryEntries⟩ := exists_rehearsalParameters h.query_vacant
  refine ⟨path, query, ?_, hpathEntries, hqueryEntries⟩
  have hgiven : ¬(Value.text url).isVacant = true := by simpa [Value.isVacant] using hurl
  rw [rehearsal, h.url_eq]
  dsimp only [Option.getD_some]
  rw [if_neg hgiven, hpath, hquery, h.method_eq, h.body_eq]
  rfl

/-! ## Two ways to one result -/

/-- What comes of a request and of trying it out, where the request has a result or none and
dispatching takes some time: both wait alike and fail alike, or the reply to the one shows the
result and that to the other reports it. -/
structure Rehearses [Stack] (live dry : Waited (Except ServiceFailure Reply))
    (result? : Option DispatchResult) (latency : Double) : Prop where
  /-- Both wait alike. -/
  slept : dry.slept = live.slept
  /-- Without a result, both fail alike. -/
  failed : result? = none → ∃ failure,
    live.value = .error (.dispatch failure) ∧ dry.value = .error (.dispatch failure)
  /-- The request is replied to if the reply can be sent. -/
  sent : ∀ result ∈ result?, (∃ reply, live.value = .ok reply) ↔ result.IsSendable
  /-- Trying it out is replied to if the report can be sent. -/
  told : ∀ result ∈ result?, (∃ reply, dry.value = .ok reply) ↔
    ∃ report, result.report latency = .ok report ∧ report.SendsWithin Stack.writing
  /-- The reply to the request shows the result. -/
  shown : ∀ result ∈ result?, ∀ reply, live.value = .ok reply → result.ShownBy reply
  /-- The reply to trying it out reports the result. -/
  reported : ∀ result ∈ result?, ∀ reply, dry.value = .ok reply →
    ∃ report, reply.Carries 200 (.ofEntries report) ∧ result.ReportedBy report

/-- The reply that reports on a result. -/
def reportReply [Stack] (latency : Double) (result : DispatchResult) :
    Except ServiceFailure Reply :=
  (result.report latency).mapError .failed >>= Reply.json 200 []

/-- The report on a result is replied if and only if it can be sent. -/
theorem exists_reportReply_iff {latency : Double} {result : DispatchResult} :
    (∃ reply, reportReply latency result = .ok reply) ↔
      ∃ report, result.report latency = .ok report ∧ report.SendsWithin Stack.writing := by
  constructor
  · rintro ⟨reply, hreply⟩
    obtain ⟨report, hreport, hsent⟩ := bind_eq_ok_iff.mp hreply
    exact ⟨report, mapError_eq_ok_iff.mp hreport, Reply.exists_json_eq_ok_iff.mp ⟨reply, hsent⟩⟩
  · rintro ⟨report, hreport, hsends⟩
    obtain ⟨reply, hsent, -⟩ := Reply.exists_carries hsends 200
    exact ⟨reply, bind_eq_ok_iff.mpr ⟨report, mapError_eq_ok_iff.mpr hreport, hsent⟩⟩

theorem exists_report_of_reportReply {latency : Double} {result : DispatchResult} {reply : Reply}
    (h : reportReply latency result = .ok reply) :
    ∃ report, reply.Carries 200 (.ofEntries report) ∧ result.ReportedBy report := by
  obtain ⟨value, hvalue, hsent⟩ := bind_eq_ok_iff.mp h
  obtain ⟨report, rfl, hreport⟩ := reportedBy_of_report (mapError_eq_ok_iff.mp hvalue)
  exact ⟨report, Reply.carries_of_json hsent, hreport⟩

/-- Results that are the same but for the URL tell the same. -/
theorem rehearses_of_agree {x y : Waited (Except DispatchFailure DispatchResult)}
    (h : Waited.Agree SameButUrl x y)
    (hproper : ∀ result, x.value = .ok result → result.IsProper) (latency : Double) :
    Rehearses ⟨x.slept, x.value.mapError .dispatch >>= Reply.ofResult⟩
      ⟨y.slept, y.value.mapError .dispatch >>= reportReply latency⟩ x.value.toOption latency := by
  obtain ⟨slept, value⟩ := x
  obtain ⟨slept', value'⟩ := y
  obtain ⟨hslept, hvalue⟩ := h
  dsimp only at hslept hvalue hproper
  subst hslept
  -- what was dispatched came to the same failure, or to results that differ in the URL only
  cases hvalue with
  | error failure =>
    refine ⟨rfl, fun _ ↦ ⟨failure, rfl, rfl⟩, ?_, ?_, ?_, ?_⟩
    all_goals exact fun result hresult ↦ absurd hresult (Option.not_mem_none result)
  | @ok result other hsame =>
    refine ⟨rfl, fun hnone ↦ absurd hnone (Option.some_ne_none result), ?_, ?_, ?_, ?_⟩
    · rintro _ ⟨⟩
      exact exists_ofResult_iff
    · rintro _ ⟨⟩
      exact exists_reportReply_iff.trans (hsame.exists_report_iff Stack.writing_pos).symm
    · rintro _ ⟨⟩ reply hreply
      exact shownBy_of_ofResult (hproper result rfl) hreply
    · rintro _ ⟨⟩ reply hreply
      replace hreply : reportReply latency other = .ok reply := hreply
      obtain ⟨report, hcarries, hreport⟩ := exists_report_of_reportReply hreply
      exact ⟨report, hcarries, hsame.reportedBy hreport⟩

section Answers

variable {server : Server} {request trial : HttpRequest}

theorem respond_snd (hcontent : request.content = .ok body) :
    (server.respond request).2 =
      let outcome := Dispatch.dispatch server.settings.dispatch server.registry
        ⟨request.method, request.target, .null, .null, body⟩
      ⟨outcome.slept, outcome.value.mapError .dispatch >>= Reply.ofResult⟩ := by
  rw [respond, withContent_of_ok hcontent]
  dsimp only
  split
  · rename_i failure hvalue
    rw [hvalue]
    rfl
  · rename_i result hvalue
    rw [hvalue]
    rfl

/-- A request and its description with a URL that leads alike have the same result. -/
theorem rehearses_answer [Framework] (hformed : server.IsFormed)
    (hlive : server.adminAction? request = none) (hserved : request.isForEndpoints = true)
    (hdry : server.adminAction? trial = some .rehearse) (hcontent : request.content = .ok body)
    (htrial : trial.content = .ok (.object identity payload))
    (hpayload : payload.Describes request.method url body) (hne : url ≠ [])
    (hurl : Url.LeadAlike request.target url) (clock clock' : Clock) :
    Rehearses (server.answer clock request).2 (server.answer clock' trial).2
      (server.result? request) clock'.latency := by
  obtain ⟨path, query, hrehearsal, hpath, hquery⟩ :=
    exists_rehearsal_eq_ok hpayload hne identity
  have hanswer : (server.answer clock request).2 = (server.respond request).2 := by
    rw [answer_of_isForEndpoints hlive hserved]
  have htried : (server.answer clock' trial).2
      = server.rehearsalReply clock' (.object identity payload) := by
    rw [answer_of_asked hdry, administer, withContent_of_ok htrial]
  have hresult : server.result? request
      = (Dispatch.dispatch server.settings.dispatch server.registry
          ⟨request.method, request.target, .null, .null, body⟩).value.toOption := by
    rw [result?, hcontent]
    rfl
  -- parameters of the path and of the query come from the URL, since none are given explicitly
  have hcontext (captures : Table Text) :
      DispatchRequest.context ⟨request.method, request.target, .null, .null, body⟩ captures
        = DispatchRequest.context ⟨request.method, url, path, query, body⟩ captures := by
    have hnull : DispatchRequest.explicitEntries .null = .ok [] := rfl
    simp only [DispatchRequest.context, hnull, hpath, hquery, hurl.queryParameters_eq]
  rw [hanswer, respond_snd hcontent, htried, hresult, rehearsalReply, hrehearsal]
  refine rehearses_of_agree ?_ (fun result ↦ isProper_of_dispatch hformed) clock'.latency
  exact Dispatch.agree_dispatch_of_leadAlike rfl hurl hcontext

end Answers

/-- **Trying requests out.** Whatever a server was asked before, a request for its endpoints is sent
to a target that is none of administration, and it is described to be tried out, with the URL that
the server makes of it or, if there is nothing to decode in the path, with the target. Then both
wait alike. If the request has no result, both fail alike. Otherwise the request is replied to if
and only if the reply can be sent, and trying it out is replied to if and only if the report can be
sent; the reply shows the result, and the report has its parts. -/
theorem rehearses_request [YamlLibrary] [Framework] {clock : Clock} {files : File.Files}
    {settings : Settings} {started : Server} (hstart : start clock files settings = .ok started)
    (run : List (Clock × HttpRequest)) {target : Text} (htarget : Url.IsTarget target)
    {octets : Text.Utf8.Octets}
    (hcontent : (HttpRequest.sentTo target method octets).content = .ok body)
    (hlive : started.adminAction? (.sentTo target method octets) = none)
    (hserved : (HttpRequest.sentTo target method octets).isForEndpoints = true)
    (hurl : url = (HttpRequest.sentTo target method octets).target ∨
      HttpRequest.IsDecoded target ∧ url = target)
    {trial : HttpRequest} (hdry : started.adminAction? trial = some .rehearse)
    (htrial : trial.content = .ok (.object identity payload))
    (hpayload : payload.Describes method url body) (clock' clock'' : Clock) :
    let server := (started.answerEach run).1
    let request := HttpRequest.sentTo target method octets
    Rehearses (server.answer clock' request).2 (server.answer clock'' trial).2
      (server.result? request) clock''.latency := by
  intro server request
  have hsettings : server.settings = started.settings := settings_answerEach started run
  have hroute : url ≠ [] ∧ Url.LeadAlike request.target url := by
    rcases hurl with rfl | ⟨hdecoded, rfl⟩
    · exact ⟨HttpRequest.target_sentTo_ne_nil htarget.slash, .refl _⟩
    · refine ⟨?_, HttpRequest.leadAlike_target_sentTo htarget hdecoded⟩
      rintro rfl
      exact absurd htarget.slash (by decide)
  rw [← adminAction?_of_settings hsettings] at hlive hdry
  exact rehearses_answer (isFormed_answerEach (isFormed_start hstart) run) hlive hserved hdry
    hcontent htrial hpayload hroute.1 hroute.2 clock' clock''

/-! ## A server with one endpoint -/

/-- A clock that stands still. -/
def oneClock : Clock := .stopped "2020-01-01"

/-- A server without endpoints. -/
def emptyServer : Server where
  settings := ⟨Options.default.set .seedDemo (.bool false), .singlePass, .firstMatch, "info", .info,
    3000, "/__admin__", []⟩
  registry := .empty
  metrics := .zero oneClock.now
  readings := 0

/-- A request to register an endpoint that answers with the second segment of the path. -/
def echoSave : HttpRequest := ⟨"POST", "/__admin__/endpoints", [], Text.ofString
  "\x7b\"endpointId\":\"/u/:id\",\"response\":[\"\x7b\x7bpath.id\x7d\x7d\"]\x7d"⟩

/-- The server after that request. -/
def echoServer : Server :=
  { emptyServer with
    registry := ⟨[⟨"/u/:id", .get, ⟨200, 0, "[\"\x7b\x7bpath.id\x7d\x7d\"]"⟩, [], [],
      .text "2020-01-01", .text "2020-01-01"⟩]⟩
    readings := 1 }

theorem answerEach_echoSave [Framework] :
    letI : Stack := .usual
    (emptyServer.answerEach [(oneClock, echoSave)]).1 = echoServer := by
  let payload : Value := .ofEntries [("endpointId", .text "/u/:id"),
    ("response", .ofItems [.text "\x7b\x7bpath.id\x7d\x7d"])]
  let endpoint : Endpoint :=
    ⟨"/u/:id", .get, ⟨200, 0, "[\"\x7b\x7bpath.id\x7d\x7d\"]"⟩, [], [], .null, .null⟩
  have hasked : emptyServer.adminAction? echoSave = some .save := by decide
  have hcontent : @HttpRequest.content .usual echoSave = .ok payload := by
    let stack : Stack := .usual
    refine HttpRequest.content_of_read (List.cons_ne_nil _ _) (t := echoSave.body) (by decide) ?_
    simp only [echoSave, payload]
    cbv
  have hendpoint : @Endpoint.ofPayload .usual payload = .ok endpoint := by
    simp only [payload, endpoint]
    cbv
  rw [answerEach_cons (answer_of_save oneClock hasked hcontent), save_of_ofPayload hendpoint]
  rfl

/-- The reply of the endpoint. -/
def echoReply (body : Text) : Reply :=
  ⟨200, [(Reply.endpointName, "/u/:id-GET"), (Reply.contentType, Reply.jsonType)], body⟩

/-- A request to try out a request to a URL. -/
def trialOf (url : Text) : HttpRequest :=
  ⟨"POST", "/__admin__/test", [], ("\x7b\"url\":\"" : Text) ++ url ++ "\"\x7d"⟩

/-- The reply that reports on a request for a segment, with the query as it is echoed. -/
def echoTrial (segment query : Text) : Reply where
  status := 200
  headers := [(Reply.contentType, Reply.jsonType)]
  body := ("\x7b\"kind\":\"ok\",\"statusCode\":200,\"endpoint\":\"/u/:id-GET\",\"scenario\":null,"
      : Text) ++ "\"delay\":0,\"latencyMs\":0.0,\"body\":[\"" ++ segment
    ++ "\"],\"request\":\x7b\"pathParams\":\x7b\"id\":\"" ++ segment
    ++ "\"\x7d,\"queryParams\":\x7b" ++ query ++ "\x7d,\"bodyParams\":\x7b\x7d\x7d\x7d"

theorem answer_sentTo_query :
    letI : Stack := .usual
    letI : Framework := .bare
    (echoServer.answer oneClock (.sentTo "/u/7?q=%20" "GET" [])).2.value
      = .ok (echoReply "[\"7\"]") := by
  let stack : Stack := .usual
  let framework : Framework := .bare
  rw [answer_of_isForEndpoints (by decide) (by decide)]
  simp only [echoServer, emptyServer, oneClock, echoReply]
  cbv

theorem answer_trialOf_query :
    letI : Stack := .usual
    letI : Framework := .bare
    (echoServer.answer oneClock (trialOf "/u/7?q=%20")).2.value
      = .ok (echoTrial "7" "\"q\":0") := by
  let stack : Stack := .usual
  let framework : Framework := .bare
  have htried : echoServer.adminAction? (trialOf "/u/7?q=%20") = some .rehearse := by decide
  rw [answer_of_asked htried]
  simp only [echoServer, emptyServer, oneClock, echoTrial, trialOf]
  cbv

/-- A request with an escape in its query, and the same request tried out. -/
theorem rehearses_request_query :
    letI : Stack := .usual
    letI : YamlLibrary := .bare
    letI : Framework := .bare
    (emptyServer.answerEach [(oneClock, echoSave)]).1 = echoServer ∧
      (echoServer.answer oneClock (.sentTo "/u/7?q=%20" "GET" [])).2.value
        = .ok (echoReply "[\"7\"]") ∧
      (echoServer.answer oneClock (trialOf "/u/7?q=%20")).2.value
        = .ok (echoTrial "7" "\"q\":0") ∧
      ∃ (result : DispatchResult) (report : Entries), result.ShownBy (echoReply "[\"7\"]") ∧
        (echoTrial "7" "\"q\":0").Carries 200 (.ofEntries report) ∧ result.ReportedBy report := by
  let stack : Stack := .usual
  let library : YamlLibrary := .bare
  let framework : Framework := .bare
  refine ⟨answerEach_echoSave, answer_sentTo_query, answer_trialOf_query, ?_⟩
  have hstart : start oneClock [] emptyServer.settings = .ok emptyServer := rfl
  have htarget : Url.IsTarget "/u/7?q=%20" := ⟨rfl, by decide, by decide⟩
  have hasked : emptyServer.adminAction? (.sentTo "/u/7?q=%20" "GET" []) = none := by decide
  have hserved : (HttpRequest.sentTo "/u/7?q=%20" "GET" []).isForEndpoints = true := by decide
  have htried : emptyServer.adminAction? (trialOf "/u/7?q=%20") = some .rehearse := by decide
  have htrial : @HttpRequest.content .usual (trialOf "/u/7?q=%20")
      = .ok (.ofEntries [("url", .text "/u/7?q=%20")]) := by
    simp only [trialOf]
    cbv
  have hrehearses := rehearses_request hstart [(oneClock, echoSave)] htarget
    (HttpRequest.content_nil "GET" _ _) hasked hserved (.inr ⟨by decide, rfl⟩) htried htrial
    ⟨rfl, rfl, rfl, rfl, rfl⟩ oneClock oneClock
  simp only [answerEach_echoSave] at hrehearses
  obtain ⟨-, hfailed, -, -, hshown, hreported⟩ := hrehearses
  subst stack framework
  cases hresult : @result? .usual echoServer (.sentTo "/u/7?q=%20" "GET" []) with
  | none =>
    obtain ⟨failure, hvalue, -⟩ := hfailed hresult
    rw [answer_sentTo_query] at hvalue
    cases hvalue
  | some result =>
    obtain ⟨report, hreport⟩ := hreported result hresult _ answer_trialOf_query
    exact ⟨result, report, hshown result hresult _ answer_sentTo_query, hreport⟩

theorem answer_sentTo_escaped :
    letI : Stack := .usual
    letI : Framework := .bare
    (echoServer.answer oneClock (.sentTo "/u/a%20b" "GET" [])).2.value
      = .ok (echoReply "[\"a b\"]") := by
  let stack : Stack := .usual
  let framework : Framework := .bare
  rw [answer_of_isForEndpoints (by decide) (by decide)]
  simp only [echoServer, emptyServer, oneClock, echoReply]
  cbv

theorem answer_trialOf_escaped :
    letI : Stack := .usual
    letI : Framework := .bare
    (echoServer.answer oneClock (trialOf "/u/a%20b")).2.value
      = .ok (echoTrial "a%20b" []) := by
  let stack : Stack := .usual
  let framework : Framework := .bare
  have htried : echoServer.adminAction? (trialOf "/u/a%20b") = some .rehearse := by decide
  rw [answer_of_asked htried]
  simp only [echoServer, emptyServer, oneClock, echoTrial, trialOf]
  cbv

/-- With an escape in the path of the target, the target is not the URL to describe: the request is
answered with the decoded segment, and trying it out tells the segment as it was sent. -/
theorem rehearsal_escaped :
    letI : Stack := .usual
    letI : YamlLibrary := .bare
    letI : Framework := .bare
    start oneClock [] emptyServer.settings = .ok emptyServer ∧
      (emptyServer.answerEach [(oneClock, echoSave)]).1 = echoServer ∧
      (trialOf "/u/a%20b").content = .ok (.ofEntries [("url", .text "/u/a%20b")]) ∧
      (echoServer.answer oneClock (.sentTo "/u/a%20b" "GET" [])).2.value
        = .ok (echoReply "[\"a b\"]") ∧
      (echoServer.answer oneClock (trialOf "/u/a%20b")).2.value
        = .ok (echoTrial "a%20b" []) ∧
      ∃ report : Entries, (echoTrial "a%20b" []).Carries 200 (.ofEntries report) ∧
        report.get? "body" = some (.ofItems [.text "a%20b"]) := by
  let report : Entries := [("kind", .text "ok"), ("statusCode", .int 200),
    ("endpoint", .text "/u/:id-GET"), ("scenario", .null), ("delay", .int 0),
    ("latencyMs", .double (Double.zeroOf false)), ("body", .ofItems [.text "a%20b"]),
    ("request", .ofEntries [("pathParams", .ofEntries [("id", .text "a%20b")]),
      ("queryParams", .ofEntries []), ("bodyParams", .ofEntries [])])]
  have htrial : @HttpRequest.content .usual (trialOf "/u/a%20b")
      = .ok (.ofEntries [("url", .text "/u/a%20b")]) := by
    simp only [trialOf]
    cbv
  let stack : Stack := .usual
  let framework : Framework := .bare
  have hwrite : Json.write .standard (.ofEntries report) = .ok (echoTrial "a%20b" []).body := by
    simp only [report, echoTrial]
    cbv
  exact ⟨rfl, answerEach_echoSave, htrial, answer_sentTo_escaped, answer_trialOf_escaped, report,
    ⟨rfl, hwrite⟩, rfl⟩

end Server

end MockApi
