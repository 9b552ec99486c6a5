import MockApi.Proofs.Route.Times
import MockApi.Proofs.Server.Run
import MockApi.Proofs.Server.Save

/-!
# A reset gives a fresh server

After a reset, a server answers like one that has just started under the same settings, but for
times. The two are compared request by request: the relation `Alike` leaves open nothing but times,
it holds after the reset, and every request keeps it and is answered the same but for times.

Files of definitions are read at the start and not at a reset, so there must be none of them.
-/

namespace MockApi

variable {stack : Stack}

/-- A clock whose times can be told: none of them is empty, and all can be sent. -/
structure Clock.IsProper (clock : Clock) : Prop where
  /-- The readings are times. -/
  stamp : ∀ n, (clock.stamp n).IsTime
  /-- The time of the answers is one. -/
  now : clock.now.IsTime
  /-- The time that has gone by is a number. -/
  since : ∀ t, Number.IsSendable (.double (clock.since t))
  /-- The time that dispatching takes is a number. -/
  latency : Number.IsSendable (.double clock.latency)

/-- Metrics that are the same but for the time since which they count. -/
structure Metrics.SameButStart (metrics other : Metrics) : Prop where
  /-- The counts are the same. -/
  counts : { metrics with start := other.start } = other
  /-- The one time can be sent. -/
  start : metrics.start.IsTime
  /-- The other time can be sent. -/
  other_start : other.start.IsTime

theorem Metrics.sameButStart_zero {clock clock' : Clock} (hclock : clock.IsProper)
    (hclock' : clock'.IsProper) : (zero clock.now).SameButStart (zero clock'.now) :=
  ⟨rfl, hclock.now, hclock'.now⟩

namespace Reply

/-! ## Replies -/

/-- Two replies that are the same but for times: statuses and headers are the same, and so are the
bodies, unless they are documents whose values are the same but for times. -/
structure SameButTimes [Stack] (reply other : Reply) : Prop where
  /-- The statuses are the same. -/
  status : reply.status = other.status
  /-- The headers are the same. -/
  headers : reply.headers = other.headers
  /-- The bodies may differ in times. -/
  body : reply.body = other.body ∨ ∃ content content' : Value, content.SameButTimes content' ∧
    Json.write .standard content = .ok reply.body ∧ Json.write .standard content' = .ok other.body

theorem SameButTimes.refl (reply : Reply) : reply.SameButTimes reply := ⟨rfl, rfl, .inl rfl⟩

/-- Contents that are the same but for times make such replies. -/
theorem agree_json {content other : Value} (h : content.SameButTimes other) (status : Nat) :
    Agree SameButTimes (json status [] content) (json status [] other) := by
  have hwritten := Json.writtenAlike_of_sameButTimes h Stack.writing 0
  unfold json Json.write
  generalize hbody : Json.writeWithin .standard Stack.writing 0 content = body? at hwritten ⊢
  generalize hbody' : Json.writeWithin .standard Stack.writing 0 other = body?' at hwritten ⊢
  cases hwritten with
  | error failure => exact .error _
  | @ok body body' hsent =>
    have hnone : (Text.Utf8.encode? body).isNone = (Text.Utf8.encode? body').isNone := by
      rw [Bool.eq_iff_iff, Text.isNone_encode?_iff, Text.isNone_encode?_iff]
      exact not_congr hsent
    rw [mapError_ok, mapError_ok, ok_bind, ok_bind, hnone]
    split
    · exact .error _
    · exact .ok ⟨rfl, rfl, .inr ⟨content, other, h, hbody, hbody'⟩⟩

/-- The reply for a result does not tell the times of the endpoint. -/
theorem ofResult_eq_of_sameButTimes {result other : DispatchResult}
    (h : result.SameButTimes other) : ofResult result = ofResult other := by
  cases h with
  | notFound => rfl
  | served h =>
    rw [h.eq_update]
    rfl

end Reply

/-- Results that are the same but for times are counted alike. -/
theorem Metrics.SameButStart.record {metrics other : Metrics} (h : metrics.SameButStart other)
    (method : Text) {result result' : DispatchResult} (hresult : result.SameButTimes result') :
    (metrics.record method result).SameButStart (other.record method result') := by
  obtain ⟨hcounts, hstart, hstart'⟩ := h
  have hrecord (start : Text) :
      ({ metrics with start := start } : Metrics).record method result
        = { metrics.record method result with start := start } := by
    cases result with
    | notFound => rfl
    | served answer =>
      unfold Metrics.record
      dsimp only
      split <;> rfl
  have hkept (metrics : Metrics) (result : DispatchResult) :
      (metrics.record method result).start = metrics.start := by
    cases result with
    | notFound => rfl
    | served answer =>
      unfold Metrics.record
      dsimp only
      split <;> rfl
  have halike : other.record method result' = other.record method result := by
    cases hresult with
    | notFound => rfl
    | served => rfl
  refine ⟨?_, (hkept metrics result).symm ▸ hstart, (hkept other result').symm ▸ hstart'⟩
  rw [hkept, ← hrecord, hcounts, halike]

namespace Server

/-! ## Servers that differ in times only -/

/-- Two servers that no request tells apart but for times. Without administration nobody sees the
metrics. -/
structure Alike (server other : Server) : Prop where
  /-- The settings are the same. -/
  settings : server.settings = other.settings
  /-- The registries are the same but for times. -/
  registry : server.registry.SameButTimes other.registry
  /-- The metrics are the same but for the start if they can be seen. -/
  metrics : server.settings.adminEnabled = true → server.metrics.SameButStart other.metrics

/-- Two servers with answers: the servers are alike, and so are the answers but for times. -/
def AnsweredAlike [Stack] (answered other : Server × Waited (Except ServiceFailure Reply)) : Prop :=
  answered.1.Alike other.1 ∧ Waited.Agree Reply.SameButTimes answered.2 other.2

variable {server other : Server} {clock clock' : Clock}

theorem Alike.upsert (h : server.Alike other) (hclock : clock.IsProper)
    (hclock' : clock'.IsProper) (endpoint : Endpoint) :
    (server.upsert clock endpoint).Alike (other.upsert clock' endpoint) :=
  ⟨h.settings, h.registry.upsert endpoint (hclock.stamp _) (hclock'.stamp _), h.metrics⟩

theorem Alike.upsertAll (h : server.Alike other) (hclock : clock.IsProper)
    (hclock' : clock'.IsProper) (endpoints : List Endpoint) :
    (server.upsertAll clock endpoints).Alike (other.upsertAll clock' endpoints) := by
  induction endpoints generalizing server other with
  | nil => exact h
  | cons endpoint endpoints ih => exact ih (h.upsert hclock hclock' endpoint)

/-- The same endpoints are new to servers that are alike. -/
theorem Alike.registerAll_snd_eq (h : server.Alike other) (hclock : clock.IsProper)
    (hclock' : clock'.IsProper) (endpoints : List Endpoint) :
    (server.registerAll clock endpoints).2 = (other.registerAll clock' endpoints).2 := by
  induction endpoints generalizing server other with
  | nil => rfl
  | cons endpoint endpoints ih =>
    have hcounted (server : Server) (clock : Clock) :
        (server.registerAll clock (endpoint :: endpoints)).2
          = ((server.upsert clock endpoint).registerAll clock endpoints).2
            + (!server.registry.contains endpoint.identity).toNat := by
      rw [registerAll, register, Registry.save_eq]
      rfl
    rw [hcounted, hcounted, ih (h.upsert hclock hclock' endpoint), h.registry.contains_eq]

theorem Alike.endpointsByMethod_eq (h : server.Alike other) :
    server.endpointsByMethod = other.endpointsByMethod := by
  have hmethods : server.registry.endpoints.map (·.method.name)
      = other.registry.endpoints.map (·.method.name) :=
    h.registry.map_eq fun endpoint other hendpoint ↦ by rw [hendpoint.eq_update]
  have hcounts (server : Server) : server.endpointsByMethod
      = (server.registry.endpoints.map (·.method.name)).foldl Metrics.countIn [] :=
    List.foldl_map.symm
  rw [hcounts, hcounts, hmethods]

/-- Servers that are alike, with the same answer but for times. -/
theorem Alike.answered (h : server.Alike other) {reply reply' : Except ServiceFailure Reply}
    (hreply : Agree Reply.SameButTimes reply reply') :
    AnsweredAlike (server, ⟨[], reply⟩) (other, ⟨[], reply'⟩) :=
  ⟨h, rfl, hreply⟩

theorem Alike.withContent (h : server.Alike other) (request : HttpRequest)
    {next next' : Value → Server × Waited (Except ServiceFailure Reply)}
    (hnext : ∀ content, AnsweredAlike (next content) (next' content)) :
    AnsweredAlike (server.withContent request next) (other.withContent request next') := by
  unfold Server.withContent
  split
  · exact hnext _
  · exact h.answered (.error _)

/-! ## Reports -/

theorem Alike.agree_healthReply (h : server.Alike other) (hclock : clock.IsProper)
    (hclock' : clock'.IsProper) :
    Agree Reply.SameButTimes (server.healthReply clock) (other.healthReply clock') := by
  have htime : Value.SameEntry ("timestamp", .text clock.now) ("timestamp", .text clock'.now) :=
    .time (by decide) (.times hclock.now hclock'.now)
  refine Reply.agree_json (.ofEntries ?_) 200
  rw [h.registry.size_eq]
  exact .cons (.refl _) (.cons htime (.cons (.refl _) (.cons (.refl _) .nil)))

theorem Alike.agree_metricsReply (h : server.Alike other) (hclock : clock.IsProper)
    (hclock' : clock'.IsProper) (henabled : server.settings.adminEnabled = true) :
    Agree Reply.SameButTimes (server.metricsReply clock) (other.metricsReply clock') := by
  obtain ⟨hcounts, hstart, hstart'⟩ := h.metrics henabled
  have htime : Value.SameEntry ("start_time", .text server.metrics.start)
      ("start_time", .text other.metrics.start) := .time (by decide) (.times hstart hstart')
  have hmeasure : Value.SameEntry
      ("uptime_seconds", .double (clock.since server.metrics.start))
      ("uptime_seconds", .double (clock'.since other.metrics.start)) :=
    .measure (by decide) (hclock.since _) (hclock'.since _)
  refine Reply.agree_json (.ofEntries ?_) 200
  rw [h.endpointsByMethod_eq]
  generalize clock.since server.metrics.start = uptime at hmeasure ⊢
  generalize clock'.since other.metrics.start = uptime' at hmeasure ⊢
  rw [← hcounts] at htime ⊢
  have hinsert (metrics : Metrics) (uptime : Double) (counts : Value) :
      Table.insert (metrics.entries uptime) "endpoints_by_method" counts
        = metrics.entries uptime ++ ([("endpoints_by_method", counts)] : Entries) := rfl
  rw [hinsert, hinsert, Metrics.entries, Metrics.entries]
  refine List.rel_append ?_ (.cons (.refl _) .nil)
  iterate 6 refine .cons (.refl _) ?_
  exact .cons hmeasure (.cons htime .nil)

theorem Alike.agree_listReply (h : server.Alike other) :
    Agree Reply.SameButTimes server.listReply other.listReply := by
  have hitems : List.Forall₂ Value.SameButTimes (server.registry.endpoints.map Endpoint.toPayload)
      (other.registry.endpoints.map Endpoint.toPayload) := by
    rw [List.forall₂_map_left_iff, List.forall₂_map_right_iff]
    exact h.registry.imp fun _ _ ↦ Endpoint.SameButTimes.toPayload
  refine Reply.agree_json (.ofEntries ?_) 200
  rw [h.registry.size_eq]
  exact .cons (.refl _) (.cons (.value (.ofItems hitems)) .nil)

theorem Alike.agree_lookReply (h : server.Alike other) (identity : Text) :
    Agree Reply.SameButTimes (server.lookReply identity) (other.lookReply identity) := by
  have hfound := h.registry.get? identity
  unfold lookReply
  generalize server.registry.get? identity = found? at hfound ⊢
  generalize other.registry.get? identity = found?' at hfound ⊢
  cases hfound with
  | none => exact .refl .refl _
  | some hendpoint => exact Reply.agree_json hendpoint.toPayload 200

/-- Rehearsals tell no times but the latency. -/
theorem Alike.agree_rehearsalReply (h : server.Alike other) (hclock : clock.IsProper)
    (hclock' : clock'.IsProper) (payload : Value) :
    Waited.Agree Reply.SameButTimes (server.rehearsalReply clock payload)
      (other.rehearsalReply clock' payload) := by
  unfold rehearsalReply
  rw [← h.settings]
  split
  · exact ⟨rfl, .refl .refl _⟩
  · exact ⟨rfl, .error _⟩
  · rename_i request _
    obtain ⟨hslept, hvalue⟩ := Dispatch.agree_dispatch h.registry server.settings.dispatch request
    refine ⟨hslept, ?_⟩
    dsimp only
    generalize (Dispatch.dispatch _ server.registry request).value = value at hvalue ⊢
    generalize (Dispatch.dispatch _ other.registry request).value = value' at hvalue ⊢
    cases hvalue with
    | error failure => exact .error _
    | @ok result result' hresult =>
      have hreport : Agree Value.SameButTimes (result.report clock.latency)
          (result'.report clock'.latency) := hresult.agree_report hclock.latency hclock'.latency
      rw [mapError_ok, mapError_ok, ok_bind, ok_bind]
      generalize result.report clock.latency = report at hreport ⊢
      generalize result'.report clock'.latency = report' at hreport ⊢
      cases hreport with
      | error failure => exact .error _
      | ok hcontent => exact Reply.agree_json hcontent 200

/-! ## Registering and deleting -/

theorem Alike.save (h : server.Alike other) (hclock : clock.IsProper) (hclock' : clock'.IsProper)
    (payload : Value) :
    (server.save clock payload).1.Alike (other.save clock' payload).1 ∧
      Agree Reply.SameButTimes (server.save clock payload).2 (other.save clock' payload).2 := by
  cases hpayload : Endpoint.ofPayload payload with
  | error error =>
    unfold Server.save
    rw [hpayload]
    cases error with
    | invalid problem => exact ⟨h, .refl .refl _⟩
    | failed failure => exact ⟨h, .error _⟩
  | ok endpoint =>
    have hnow := hclock.stamp (server.readings + 1)
    have hnow' := hclock'.stamp (other.readings + 1)
    have hstored := Registry.sameButTimes_stamped endpoint (h.registry.get? endpoint.identity)
      hnow hnow'
    rw [save_of_ofPayload hpayload, save_of_ofPayload hpayload, h.registry.contains_eq]
    refine ⟨⟨h.settings, h.registry.upsert endpoint hnow hnow', h.metrics⟩,
      Reply.agree_json (.ofEntries ?_) _⟩
    exact .cons (.refl _) (.cons (.refl _) (.cons (.value hstored.toPayload) .nil))

theorem Alike.load (h : server.Alike other) (hclock : clock.IsProper) (hclock' : clock'.IsProper)
    (document : Value) :
    (server.load clock document).1.Alike (other.load clock' document).1 ∧
      Agree Reply.SameButTimes (server.load clock document).2 (other.load clock' document).2 := by
  unfold Server.load
  split
  · exact ⟨h, .error _⟩
  · exact ⟨h, .refl .refl _⟩
  · rename_i endpoints _
    have hloaded := h.upsertAll hclock hclock' endpoints
    dsimp only
    rw [registerAll_fst, registerAll_fst, h.registerAll_snd_eq hclock hclock' endpoints]
    exact ⟨hloaded, .refl .refl _⟩

theorem Alike.delete (h : server.Alike other) (identity : Text) :
    (server.delete identity).1.Alike (other.delete identity).1 ∧
      Agree Reply.SameButTimes (server.delete identity).2 (other.delete identity).2 := by
  unfold Server.delete
  rw [Registry.remove_eq, Registry.remove_eq]
  dsimp only
  rw [h.registry.contains_eq]
  exact ⟨⟨h.settings, h.registry.delete identity, h.metrics⟩, .refl .refl _⟩

/-- After a reset, nothing but the settings is left of a server. -/
theorem alike_reset (hsettings : server.settings = other.settings) (hclock : clock.IsProper)
    (hclock' : clock'.IsProper) : (server.reset clock).Alike (other.reset clock') := by
  unfold reset
  rw [hsettings]
  refine Alike.upsertAll ?_ hclock hclock' _
  exact ⟨rfl, .refl _, fun _ ↦ Metrics.sameButStart_zero hclock hclock'⟩

theorem Alike.administer [Framework] (h : server.Alike other) (hclock : clock.IsProper)
    (hclock' : clock'.IsProper) (henabled : server.settings.adminEnabled = true)
    (request : HttpRequest) (action : AdminAction) :
    AnsweredAlike (server.administer clock request action)
      (other.administer clock' request action) := by
  cases action with
  | health => exact h.answered (h.agree_healthReply hclock hclock')
  | metrics => exact h.answered (h.agree_metricsReply hclock hclock' henabled)
  | list => exact h.answered h.agree_listReply
  | save =>
    refine h.withContent request fun payload ↦ ?_
    obtain ⟨hsaved, hreply⟩ := h.save hclock hclock' payload
    exact hsaved.answered hreply
  | load =>
    refine h.withContent request fun document ↦ ?_
    obtain ⟨hloaded, hreply⟩ := h.load hclock hclock' document
    exact hloaded.answered hreply
  | look =>
    rw [Server.administer, Server.administer]
    split
    · exact h.answered (h.agree_lookReply _)
    · exact h.answered (.refl .refl _)
  | delete =>
    rw [Server.administer, Server.administer]
    split
    · rename_i identity _
      obtain ⟨hdeleted, hreply⟩ := h.delete identity
      exact hdeleted.answered hreply
    · exact h.answered (.refl .refl _)
  | rehearse =>
    refine h.withContent request fun payload ↦ ?_
    exact ⟨h, h.agree_rehearsalReply hclock hclock' payload⟩
  | reset =>
    have hreply : Agree Reply.SameButTimes (server.resetWithReply clock).2
        (other.resetWithReply clock').2 := by
      have hcleared : server.registry.clear.2 = other.registry.clear.2 := h.registry.size_eq
      unfold resetWithReply
      dsimp only
      rw [hcleared, h.settings]
      exact .refl .refl _
    exact (alike_reset h.settings hclock hclock').answered hreply

/-! ## Requests and runs -/

theorem Alike.respond (h : server.Alike other) (request : HttpRequest) :
    AnsweredAlike (server.respond request) (other.respond request) := by
  refine h.withContent request fun body ↦ ?_
  obtain ⟨hslept, hvalue⟩ := Dispatch.agree_dispatch h.registry server.settings.dispatch
    ⟨request.method, request.target, .null, .null, body⟩
  have hsettings : other.settings.dispatch = server.settings.dispatch := by rw [h.settings]
  rw [hsettings]
  dsimp only
  rw [hslept]
  generalize (Dispatch.dispatch _ server.registry _).value = value at hvalue ⊢
  generalize (Dispatch.dispatch _ other.registry _).value = value' at hvalue ⊢
  cases hvalue with
  | error failure => exact ⟨h, rfl, .error _⟩
  | ok hresult =>
    dsimp only
    rw [Reply.ofResult_eq_of_sameButTimes hresult]
    exact ⟨⟨h.settings, h.registry, fun henabled ↦
      (h.metrics henabled).record request.method hresult⟩, rfl, .refl .refl _⟩

/-- **One request.** Servers that are alike stay alike, and answer the same but for times. -/
theorem Alike.answer [Framework] (h : server.Alike other) (hclock : clock.IsProper)
    (hclock' : clock'.IsProper) (request : HttpRequest) :
    AnsweredAlike (server.answer clock request) (other.answer clock' request) := by
  unfold Server.answer
  rw [← adminAction?_of_settings h.settings]
  split
  · rename_i action hasked
    exact h.administer hclock hclock' (adminAction?_eq_some_iff.mp hasked).1 request action
  · split
    · exact h.respond request
    · exact h.answered (.refl .refl _)

/-- Requests at times of one server and at times of the other. -/
abbrev TwoRuns := List (Clock × Clock × HttpRequest)

/-- The requests at the times of the one server. -/
def TwoRuns.fst (runs : TwoRuns) : List (Clock × HttpRequest) :=
  runs.map fun step ↦ (step.1, step.2.2)

/-- The requests at the times of the other server. -/
def TwoRuns.snd (runs : TwoRuns) : List (Clock × HttpRequest) := runs.map Prod.snd

/-- **Whole runs.** Servers that are alike answer the same requests the same but for times. -/
theorem Alike.answerEach [Framework] (h : server.Alike other) {runs : TwoRuns}
    (hruns : ∀ step ∈ runs, step.1.IsProper ∧ step.2.1.IsProper) :
    List.Forall₂ (Waited.Agree Reply.SameButTimes) (server.answerEach runs.fst).2
      (other.answerEach runs.snd).2 := by
  induction runs generalizing server other with
  | nil => exact .nil
  | cons step runs ih =>
    obtain ⟨⟨hclock, hclock'⟩, hruns⟩ := List.forall_mem_cons.mp hruns
    obtain ⟨halike, hanswer⟩ := h.answer hclock hclock' step.2.2
    exact .cons hanswer (ih halike hruns)

/-! ## Resets -/

/-- Without administration, the registry stays as it is. -/
theorem registry_answer_of_disabled [Framework] (h : server.settings.adminEnabled = false)
    (clock : Clock) (request : HttpRequest) :
    (server.answer clock request).1.registry = server.registry := by
  have hnone : server.adminAction? request = none := by
    rw [adminAction?, h]
    exact if_neg Bool.false_ne_true
  rw [Server.answer, hnone]
  dsimp only
  split
  · unfold Server.respond Server.withContent
    split
    · dsimp only
      split <;> rfl
    · rfl
  · rfl

theorem registry_answerEach_of_disabled [Framework] (h : server.settings.adminEnabled = false)
    (run : List (Clock × HttpRequest)) :
    (server.answerEach run).1.registry = server.registry := by
  induction run generalizing server with
  | nil => rfl
  | cons step run ih =>
    have hsettings := @settings_answer stack _ step.1 server step.2
    exact (ih (hsettings ▸ h)).trans (registry_answer_of_disabled h step.1 step.2)

/-- Without files of definitions, a server starts with nothing but its demonstration endpoints. -/
theorem start_of_no_files [YamlLibrary] {settings : Settings}
    (hfiles : Settings.elements (settings.options .definitionFiles) = .ok []) (clock : Clock)
    (files : File.Files) :
    start clock files settings = .ok (reset clock ⟨settings, .empty, .zero clock.now, 0⟩) := by
  unfold start
  rw [hfiles]
  rfl

/-- Whatever a server was asked before, after a reset it is like one that has just started. -/
theorem alike_answerEach_reset [Framework] (hsettings : server.settings = other.settings)
    (hclock : clock.IsProper) (hclock' : clock'.IsProper) (before : List (Clock × HttpRequest))
    {moment : Clock} (hmoment : moment.IsProper) {request : HttpRequest}
    (hrequest : AdminAction.reset.isAskedBy server.settings.adminStem request = true) :
    (((server.reset clock).answerEach (before ++ [(moment, request)])).1).Alike
      (other.reset clock') := by
  have hstart : ((server.reset clock).answerEach before).1.settings = server.settings :=
    (settings_answerEach _ before).trans (reset_settings clock server)
  by_cases henabled : server.settings.adminEnabled = true
  · have hasked : ((server.reset clock).answerEach before).1.adminAction? request
        = some .reset := by
      rw [adminAction?_eq_some_iff, hstart]
      exact ⟨henabled, hrequest⟩
    rw [answerEach_append, answerEach_cons (Prod.eta _).symm, answer_of_asked hasked]
    exact alike_reset (hstart.trans hsettings) hmoment hclock'
  · -- there are no resets, and nothing that they could undo but the metrics
    have hdisabled : (server.reset clock).settings.adminEnabled = false := by
      rw [reset_settings]
      simpa using henabled
    have hafter :=
      @settings_answerEach stack _ (server.reset clock) (before ++ [(moment, request)])
    have halike := alike_reset hsettings hclock hclock'
    refine ⟨hafter.trans halike.settings, ?_, fun h ↦ ?_⟩
    · rw [registry_answerEach_of_disabled hdisabled]
      exact halike.registry
    · rw [hafter, hdisabled] at h
      exact absurd h (by decide)

/-- **A reset gives a fresh server.** Without files of definitions servers start. Whatever one of
them was asked before a request for a reset, after it the server answers all requests like one that
has just started under the same settings, but for times. -/
theorem answers_after_reset [YamlLibrary] [Framework] {settings : Settings}
    (hfiles : Settings.elements (settings.options .definitionFiles) = .ok [])
    {clock clock' moment : Clock} (hclock : clock.IsProper) (hclock' : clock'.IsProper)
    (hmoment : moment.IsProper) (files files' : File.Files) (before : List (Clock × HttpRequest))
    {request : HttpRequest}
    (hrequest : AdminAction.reset.isAskedBy settings.adminStem request = true) {runs : TwoRuns}
    (hruns : ∀ step ∈ runs, step.1.IsProper ∧ step.2.1.IsProper) :
    ∃ server fresh, start clock files settings = .ok server ∧
      start clock' files' settings = .ok fresh ∧
      List.Forall₂ (Waited.Agree Reply.SameButTimes)
        ((server.answerEach (before ++ [(moment, request)])).1.answerEach runs.fst).2
        (fresh.answerEach runs.snd).2 := by
  have halike : ((reset clock ⟨settings, .empty, .zero clock.now, 0⟩).answerEach
      (before ++ [(moment, request)])).1.Alike
        (reset clock' ⟨settings, .empty, .zero clock'.now, 0⟩) :=
    alike_answerEach_reset rfl hclock hclock' before hmoment hrequest
  exact ⟨_, _, start_of_no_files hfiles clock files, start_of_no_files hfiles clock' files',
    halike.answerEach hruns⟩

/-- A server that had an endpoint registered and a request answered lists its endpoints after a
reset like one that has just started, a year later. -/
theorem answers_after_reset_list :
    letI : Stack := .usual
    letI : YamlLibrary := .bare
    letI : Framework := .bare
    let settings : Settings :=
      ⟨Options.default, .singlePass, .firstMatch, "info", .info, 3000, "/__admin__/", []⟩
    let clock : Text → Clock := .stopped
    let before : List (Clock × HttpRequest) := [(clock "2020-01-02", ⟨"GET", "/orders", [], []⟩),
      (clock "2020-01-03", ⟨"POST", "/__admin__/endpoints", [],
        Text.ofString "\x7b\"endpointId\":\"a\"\x7d"⟩)]
    let request : HttpRequest := ⟨"POST", "/__admin__/reset", [], []⟩
    let runs : TwoRuns :=
      [(clock "2020-01-05", clock "2021-01-02", ⟨"GET", "/__admin__/endpoints", [], []⟩)]
    Settings.elements (settings.options .definitionFiles) = .ok [] ∧
      AdminAction.reset.isAskedBy settings.adminStem request = true ∧
      ∃ server fresh, start (clock "2020-01-01") [] settings = .ok server ∧
        start (clock "2021-01-01") [] settings = .ok fresh ∧
        List.Forall₂ (Waited.Agree Reply.SameButTimes)
          ((server.answerEach (before ++ [(clock "2020-01-04", request)])).1.answerEach runs.fst).2
          (fresh.answerEach runs.snd).2 := by
  intro settings clock before request runs
  let stack : Stack := .usual
  let library : YamlLibrary := .bare
  let framework : Framework := .bare
  have hproper (t : Text) (ht : t ≠ [] ∧ t.IsEncodable) : (clock t).IsProper :=
    ⟨fun _ ↦ ⟨ht.1, ht.2⟩, ⟨ht.1, ht.2⟩, fun _ ↦ ⟨rfl, rfl⟩, ⟨rfl, rfl⟩⟩
  have hfiles : Settings.elements (settings.options .definitionFiles) = .ok [] := rfl
  have hrequest : AdminAction.reset.isAskedBy settings.adminStem request = true := by decide
  have hruns : ∀ step ∈ runs, step.1.IsProper ∧ step.2.1.IsProper :=
    List.forall_mem_singleton.mpr ⟨hproper "2020-01-05" (by decide),
      hproper "2021-01-02" (by decide)⟩
  exact ⟨hfiles, hrequest, answers_after_reset hfiles (hproper "2020-01-01" (by decide))
    (hproper "2021-01-01" (by decide)) (hproper "2020-01-04" (by decide)) [] [] before hrequest
    hruns⟩

/-- The reply that reports on trying out a request to a path where there is no endpoint. -/
def unmatchedTrial (latency : Text) : Reply where
  status := 200
  headers := [(Reply.contentType, Reply.jsonType)]
  body := ("\x7b\"kind\":\"not_found\",\"statusCode\":404,\"endpoint\":null,\"scenario\":null,"
      : Text) ++ "\"delay\":0,\"latencyMs\":" ++ latency
    ++ ",\"error\":\"Endpoint not found for GET /x\",\"availableEndpoints\":[]\x7d"

/-- Not only times may differ: a request that is tried out is answered with the latency as well,
which need not be the same after a reset and on a server that has just started. -/
theorem answers_after_reset_latency :
    letI : Stack := .usual
    letI : YamlLibrary := .bare
    letI : Framework := .bare
    let settings : Settings := ⟨Options.default.set .seedDemo (.bool false), .singlePass,
      .firstMatch, "info", .info, 3000, "/__admin__", []⟩
    let clock : Clock := .stopped "2020-01-01"
    let slow : Clock := { clock with latency := Double.ofRatio false 1 20 }
    let request : HttpRequest := ⟨"POST", "/__admin__/reset", [], []⟩
    let trial : HttpRequest := ⟨"POST", "/__admin__/test", [], "\x7b\"url\":\"/x\"\x7d"⟩
    ∃ server, start clock [] settings = .ok server ∧
      AdminAction.reset.isAskedBy settings.adminStem request = true ∧
      ((server.answerEach [(clock, request)]).1.answer clock trial).2.value.toOption
        = some (unmatchedTrial "0.0") ∧
      (server.answer slow trial).2.value.toOption = some (unmatchedTrial "0.05") := by
  intro settings clock slow request trial
  let stack : Stack := .usual
  let library : YamlLibrary := .bare
  let framework : Framework := .bare
  let server : Server := ⟨settings, .empty, .zero clock.now, 0⟩
  have hreset : (server.answerEach [(clock, request)]).1 = server := by
    have hasked : server.adminAction? request = some .reset := by decide
    rw [answerEach_cons (Prod.eta _).symm, answer_of_asked hasked]
    rfl
  have htried : server.adminAction? trial = some .rehearse := by decide
  refine ⟨server, rfl, by decide, ?_, ?_⟩
  · rw [hreset, answer_of_asked htried]
    decide +kernel
  · rw [answer_of_asked htried]
    decide +kernel

end Server

end MockApi
