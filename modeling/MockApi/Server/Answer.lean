import MockApi.Server.Admin

/-!
# Answering requests

A request asks either for an action of administration or for a response of an endpoint, or it is
left to the framework. One for a response is dispatched and counted; one whose dispatch fails is not
counted, and one whose reply cannot be made is.
-/

namespace MockApi.Server

variable [Stack]

/-- The server after a request was dispatched to its endpoints, and the reply. -/
def respond (server : Server) (request : HttpRequest) :
    Server × Waited (Except ServiceFailure Reply) :=
  server.withContent request fun body ↦
    let outcome := Dispatch.dispatch server.settings.dispatch server.registry
      ⟨request.method, request.target, .null, .null, body⟩
    match outcome.value with
    | .error failure => (server, ⟨outcome.slept, .error (.dispatch failure)⟩)
    | .ok result =>
      ({ server with metrics := server.metrics.record request.method result },
        ⟨outcome.slept, Reply.ofResult result⟩)

section Routes

variable [Framework]

/-- The server after a request, and the reply. -/
def answer (clock : Clock) (server : Server) (request : HttpRequest) :
    Server × Waited (Except ServiceFailure Reply) :=
  match server.adminAction? request with
  | some action => server.administer clock request action
  | none =>
    if request.isForEndpoints then server.respond request
    else (server, ⟨[], Framework.reply request.method request.path request.query⟩)

/-- The server after several requests, each answered under a clock of its own, and the replies. -/
def answerEach (server : Server) :
    List (Clock × HttpRequest) → Server × List (Waited (Except ServiceFailure Reply))
  | [] => (server, [])
  | (clock, request) :: run =>
    let (server, reply) := server.answer clock request
    let (server, replies) := answerEach server run
    (server, reply :: replies)

variable {server : Server} {request : HttpRequest}

theorem answer_of_asked {action : AdminAction} (h : server.adminAction? request = some action)
    {clock : Clock} : server.answer clock request = server.administer clock request action := by
  rw [answer, h]

theorem answer_of_isForEndpoints (h : server.adminAction? request = none)
    (hendpoints : request.isForEndpoints = true) (clock : Clock) :
    server.answer clock request = server.respond request := by
  rw [answer, h]
  exact if_pos hendpoints

theorem answer_of_not_isForEndpoints (h : server.adminAction? request = none)
    (hendpoints : request.isForEndpoints = false) (clock : Clock) :
    server.answer clock request
      = (server, ⟨[], Framework.reply request.method request.path request.query⟩) := by
  rw [answer, h]
  exact if_neg (Bool.not_eq_true _ ▸ hendpoints)

/-- The pages of the framework are its own, whatever the settings are. -/
theorem answer_of_owns (h : Framework.owns request.method request.path = true) (clock : Clock)
    (server : Server) : server.answer clock request
      = (server, ⟨[], Framework.reply request.method request.path request.query⟩) := by
  have hnone : server.adminAction? request = none := by
    unfold adminAction?
    split
    · exact List.find?_eq_none.mpr fun action _ ↦ by
        simp [Framework.isAskedBy_eq_false h action]
    · rfl
  exact answer_of_not_isForEndpoints hnone (by simp [HttpRequest.isForEndpoints, h]) clock

end Routes

end MockApi.Server
