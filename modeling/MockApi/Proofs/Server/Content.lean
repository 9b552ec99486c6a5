import MockApi.Proofs.Json.Limits
import MockApi.Proofs.Text.Utf8
import MockApi.Server.Answer

/-!
# Requests with any body

A body may hold any octets. One that is no JSON, in whatever encoding, counts as an empty object, so
that only a value beyond a limit keeps a request from being handled: one that is nested too deep, or
an integer with too many digits. Where the body is not asked for, not even these matter.
-/

namespace MockApi

variable {stack : Stack}

/-- A document in ASCII without zeros is its own text. -/
theorem Text.ofDocument?_of_ascii {t : Text} (h : ∀ c ∈ t, 0 < c ∧ c < 0x80) :
    Text.ofDocument? t = some t := by
  have hmark : Text.Encoding.ofMark? t = none := by
    unfold Text.Encoding.ofMark?
    split <;> simp at h ⊢
  have hzeros : Text.Encoding.ofZeros t = .utf8 := by
    unfold Text.Encoding.ofZeros
    split
    · rw [if_neg (by simp at h; omega), if_neg (by simp at h; omega)]
    · rw [if_neg (by simp at h; omega), if_neg (by simp at h; omega)]
    · rfl
  have hencoded : t.flatMap Text.Utf8.encodeCodePoint = t := by
    rw [List.flatMap_congr fun c hc ↦ Text.Utf8.encodeCodePoint_ascii (h c hc).2]
    exact List.flatMap_singleton' t
  have hscalar : t.IsScalarText := fun c hc ↦ by
    have := h c hc
    exact ⟨by omega, by simp [Text.isSurrogate]; omega⟩
  have hdecoded : Text.Utf8.decode? true (t.flatMap Text.Utf8.encodeCodePoint) = some t :=
    Text.Utf8.decode?_flatMap_encodeCodePoint hscalar
  rw [hencoded] at hdecoded
  rw [Text.ofDocument?, hmark, hzeros]
  exact hdecoded

namespace HttpRequest

variable {request : HttpRequest} {value : Value} {failure : Failure}

/-! ## The content of a body -/

/-- The text of the body, if there is a body and its octets are a text. -/
def document? (request : HttpRequest) : Option Text :=
  if request.body.isEmpty then none else Text.ofDocument? request.body

/-- The value of the body, if it is JSON. -/
def decoded? [Stack] (request : HttpRequest) : Option Value :=
  request.document?.bind fun t ↦ (Json.read true t).toOption

/-- The body holds a value beyond a limit. -/
def IsBeyondLimit [Stack] (request : HttpRequest) (failure : Failure) : Prop :=
  ∃ t ∈ request.document?, Json.IsBeyondLimit true t failure

/-- A body without text is an empty object, and every other one is read. -/
theorem content_eq_match (request : HttpRequest) : request.content =
    match request.document?.map (Json.read true) with
    | some (.ok value) => .ok value
    | some (.error (.failed failure)) => .error failure
    | some (.error _) | none => .ok (.ofEntries []) := by
  unfold content document?
  split
  · rfl
  · rfl

/-- The content of a request fails for the values beyond a limit only. -/
theorem content_eq_error_iff :
    request.content = .error failure ↔ request.IsBeyondLimit failure := by
  rw [content_eq_match, IsBeyondLimit]
  cases request.document? with
  | none => exact ⟨nofun, nofun⟩
  | some t =>
    simp only [Option.mem_some_iff, exists_eq_left', ← Json.read_eq_failed_iff, Option.map_some]
    rcases Json.read true t with (_ | _ | _) | _ <;> simp

/-- Without a value beyond a limit, the content is the value of the body, or an empty object if the
body is no JSON. -/
theorem content_eq_ok_iff : request.content = .ok value ↔
    (∀ failure, ¬request.IsBeyondLimit failure) ∧
      value = request.decoded?.getD (.ofEntries []) := by
  have hread (h : ∀ failure, ¬request.IsBeyondLimit failure) :
      request.content = .ok (request.decoded?.getD (.ofEntries [])) := by
    rw [content_eq_match, decoded?]
    cases hdocument : request.document? with
    | none => rfl
    | some t =>
      rw [Option.map_some, Option.bind_some]
      rcases hread : Json.read true t with (_ | _ | failure) | _
      · rfl
      · rfl
      · exact absurd ⟨t, hdocument, Json.read_eq_failed_iff.mp hread⟩ (h failure)
      · rfl
  constructor
  · intro h
    have hlimits : ∀ failure, ¬request.IsBeyondLimit failure := fun failure hbeyond ↦ by
      rw [content_eq_error_iff.mpr hbeyond] at h
      cases h
    exact ⟨hlimits, Except.ok.inj (h.symm.trans (hread hlimits))⟩
  · rintro ⟨hlimits, rfl⟩
    exact hread hlimits

/-- A body of ones, more than can be read, has no content. -/
theorem content_of_ones {method path query : Text} {n : Nat} (h : decimalDigitLimit < n) :
    (HttpRequest.mk method path query (List.replicate n '1'.toNat)).content =
      .error (.numeralTooLong n) := by
  have hdocument : (HttpRequest.mk method path query (List.replicate n '1'.toNat)).document? =
      some (List.replicate n '1'.toNat) := by
    rw [document?, if_neg (by simp; exact Nat.ne_zero_of_lt h)]
    refine Text.ofDocument?_of_ascii fun c hc ↦ ?_
    rw [List.eq_of_mem_replicate hc]
    decide
  exact content_eq_error_iff.mpr ⟨_, hdocument, Json.isBeyondLimit_ones h⟩

end HttpRequest

namespace Server

variable {server : Server} {request : HttpRequest} {content : Value}

/-! ## Answers by content -/

section

variable [Framework]

/-- Whether answering a request takes the content of its body. -/
def readsBody (server : Server) (request : HttpRequest) : Bool :=
  match server.adminAction? request with
  | none => request.isForEndpoints
  | some .save | some .load | some .rehearse => true
  | some _ => false

/-- The server after a request with a known content was dispatched and counted, and the reply. -/
def serve [Stack] (server : Server) (request : HttpRequest) (content : Value) :
    Server × Waited (Except ServiceFailure Reply) :=
  let outcome := Dispatch.dispatch server.settings.dispatch server.registry
    ⟨request.method, request.target, .null, .null, content⟩
  match outcome.value with
  | .error failure => (server, ⟨outcome.slept, .error (.dispatch failure)⟩)
  | .ok result =>
    ({ server with metrics := server.metrics.record request.method result },
      ⟨outcome.slept, Reply.ofResult result⟩)

/-- The server after a request with a known content, and the reply. -/
def handle [Stack] (clock : Clock) (server : Server) (request : HttpRequest) (content : Value) :
    Server × Waited (Except ServiceFailure Reply) :=
  match server.adminAction? request with
  | none =>
    if request.isForEndpoints then server.serve request content
    else (server, ⟨[], Framework.reply request.method request.path request.query⟩)
  | some .save => ((server.save clock content).1, ⟨[], (server.save clock content).2⟩)
  | some .load => ((server.load clock content).1, ⟨[], (server.load clock content).2⟩)
  | some .rehearse => (server, server.rehearsalReply clock content)
  | some action => server.administer clock request action

/-- A request that takes a content is handled with the one it has. -/
theorem answer_of_readsBody (clock : Clock) (h : server.readsBody request = true) :
    server.answer clock request =
      server.withContent request fun content ↦ server.handle clock request content := by
  unfold readsBody at h
  unfold answer handle
  cases haction : server.adminAction? request with
  | none =>
    rw [haction] at h
    dsimp only at h ⊢
    rw [if_pos h]
    simp only [if_pos h]
    rfl
  | some action =>
    rw [haction] at h
    cases action with
    | save | load | rehearse => rfl
    | health | metrics | list | look | delete | reset => cases h

/-- A request that takes no content is handled whatever its body holds. -/
theorem answer_of_not_readsBody (clock : Clock) (h : server.readsBody request = false)
    (content : Value) : server.answer clock request = server.handle clock request content := by
  unfold readsBody at h
  unfold answer handle
  cases haction : server.adminAction? request with
  | none =>
    rw [haction] at h
    dsimp only at h ⊢
    simp only [h, Bool.false_eq_true, if_false]
  | some action =>
    rw [haction] at h
    cases action with
    | save | load | rehearse => cases h
    | health | metrics | list | look | delete | reset => rfl

/-- **What a body does to a request.** Its content is the value of the body, or an empty object if
the body is empty or no JSON, unless a value in it is beyond a limit. With the content it has, or
without one if none is asked for, every request is handled; otherwise it ends with the failure, and
the server is as it was. -/
theorem answer_content (clock : Clock) (server : Server) (request : HttpRequest) :
    (∀ content, request.content = .ok content ↔
      (∀ failure, ¬request.IsBeyondLimit failure) ∧
        content = request.decoded?.getD (.ofEntries [])) ∧
    (∀ failure, request.content = .error failure ↔ request.IsBeyondLimit failure) ∧
    (∀ content, request.content = .ok content ∨ server.readsBody request = false →
      server.answer clock request = server.handle clock request content) ∧
    ∀ failure, request.content = .error failure → server.readsBody request = true →
      server.answer clock request = (server, ⟨[], .error (.failed failure)⟩) := by
  refine ⟨fun content ↦ HttpRequest.content_eq_ok_iff, fun failure ↦
    HttpRequest.content_eq_error_iff, fun content h ↦ ?_, fun failure hfailure hreads ↦ ?_⟩
  · cases hreads : server.readsBody request with
    | false => exact answer_of_not_readsBody clock hreads content
    | true =>
      have hcontent : request.content = .ok content := h.resolve_right (by simp [hreads])
      rw [answer_of_readsBody clock hreads, withContent_of_ok hcontent]
  · rw [answer_of_readsBody clock hreads, withContent, hfailure]

end

/-- A body that is an integer of 4301 digits keeps a request from being handled that gets a reply
without a body. -/
theorem answer_long_integer :
    letI : Stack := .usual
    letI : Framework := .bare
    let clock : Clock := .stopped "2020-01-01"
    let settings : Settings :=
      ⟨Options.default, .singlePass, .firstMatch, "info", .info, 3000, "/__admin__", []⟩
    let server : Server := ⟨settings, .empty, .zero clock.now, 0⟩
    let request (body : Text.Utf8.Octets) : HttpRequest := ⟨"GET", "/users/1", [], body⟩
    let body := List.replicate 4301 '1'.toNat
    (request body).content = .error (.numeralTooLong 4301) ∧
      (server.answer clock (request body)).2.value =
        .error (.failed (.numeralTooLong 4301)) ∧
      ((server.answer clock (request [])).2.value.map Reply.status).toOption = some 404 := by
  intro clock settings server request body
  let framework : Framework := .bare
  have hcontent : @HttpRequest.content .usual (request body) = .error (.numeralTooLong 4301) :=
    HttpRequest.content_of_ones (by decide)
  have hreads : server.readsBody (request body) = true := rfl
  refine ⟨hcontent, ?_, ?_⟩
  · rw [answer_of_readsBody clock hreads]
    unfold withContent
    rw [hcontent]
  · rfl

end Server

end MockApi
