import MockApi.Definitions.Document
import MockApi.Server.Basic
import MockApi.Server.Routes

/-!
# Administration of a server

Below a path of its own, a server lets its endpoints be listed, registered, looked up and deleted,
tells its state, tries requests out without counting them, and resets itself. A registration is done
before its reply is made, so it stays done even if the reply cannot be sent.
-/

namespace MockApi

namespace Server

/-- The action that a request asks for, if the settings let it. -/
def adminAction? (server : Server) (request : HttpRequest) : Option AdminAction :=
  if server.settings.adminEnabled then
    let stem := Text.dropEndWhile (· = '/'.toNat) server.settings.adminPrefix
    AdminAction.all.find? (·.isAskedBy stem request)
  else none

/-! ## Reports -/

/-- The numbers of endpoints by method, in order of first appearance. -/
def endpointsByMethod (server : Server) : Table Nat :=
  server.registry.endpoints.foldl (fun counts e ↦ Metrics.countIn counts e.method.name) []

variable [Stack]

/-- The reply on the health of a server. -/
def healthReply (clock : Clock) (server : Server) : Except ServiceFailure Reply :=
  Reply.json 200 [] (.ofEntries [("status", .text "OK"), ("timestamp", .text clock.now),
    ("totalEndpoints", .int server.registry.size), ("version", .text version)])

/-- The reply on the metrics of a server. -/
def metricsReply (clock : Clock) (server : Server) : Except ServiceFailure Reply :=
  Reply.json 200 [] (.ofEntries (Table.insert
    (server.metrics.entries (clock.since server.metrics.start))
    "endpoints_by_method" (Metrics.countsValue server.endpointsByMethod)))

/-- The reply that lists the endpoints of a server. -/
def listReply (server : Server) : Except ServiceFailure Reply :=
  Reply.json 200 [] (.ofEntries [("total", .int server.registry.size),
    ("endpoints", .ofItems (server.registry.endpoints.map Endpoint.toPayload))])

/-- The reply to a payload or a document with something wrong in it. -/
def invalidReply (message : Text) (field? : Option Text) : Except ServiceFailure Reply :=
  let complaint : Entries := [("kind", .text "validation_error"), ("error", .text message)]
  Reply.json 400 [] (.ofEntries (match field? with
    | some field => complaint.insert "field" (.text field)
    | none => complaint))

/-- The reply about an endpoint that is not there. -/
def unknownReply : Except ServiceFailure Reply :=
  Reply.json 404 [] (.ofEntries [("error", .text "Endpoint not found")])

/-! ## Registering -/

/-- The server after a payload was registered, and the reply. -/
def save (clock : Clock) (server : Server) (payload : Value) :
    Server × Except ServiceFailure Reply :=
  match Endpoint.ofPayload payload with
  | .error (.invalid problem) => (server, invalidReply problem.message problem.field?)
  | .error (.failed failure) => (server, .error (.failed failure))
  | .ok endpoint =>
    let readings := server.readings + 1
    let (registry, stored, created) := server.registry.save endpoint (clock.stamp readings)
    ({ server with registry, readings }, Reply.json (if created then 201 else 200) [] (.ofEntries [
      ("message", .text ("Endpoint " ++ stored.path ++ " (" ++ stored.method.name
        ++ ") saved successfully.")),
      ("created", .bool created), ("endpoint", stored.toPayload)]))

/-- The server after the endpoints of a document were registered, and the reply. Either all of them
are registered or none. -/
def load (clock : Clock) (server : Server) (document : Value) :
    Server × Except ServiceFailure Reply :=
  match Definitions.ofDocument document with
  | .error (.failed failure) => (server, .error (.failed failure))
  | .error error => (server, invalidReply ((error.message? "import").getD []) error.field?)
  | .ok endpoints =>
    let (loaded, created) := server.registerAll clock endpoints
    (loaded, Reply.json 200 [] (.ofEntries [
      ("message", .text ("Successfully loaded " ++ Text.ofNat endpoints.length ++ " endpoints.")),
      ("total", .int endpoints.length), ("created", .int created),
      ("updated", .int (endpoints.length - created))]))

/-! ## Single endpoints -/

/-- The reply with an endpoint. -/
def lookReply (server : Server) (identity : Text) : Except ServiceFailure Reply :=
  match server.registry.get? identity with
  | some endpoint => Reply.json 200 [] endpoint.toPayload
  | none => unknownReply

/-- The server after an endpoint was deleted, and the reply. -/
def delete (server : Server) (identity : Text) : Server × Except ServiceFailure Reply :=
  let (registry, found) := server.registry.remove identity
  ({ server with registry },
    if found then
      Reply.json 200 [] (.ofEntries [("message", .text ("Endpoint " ++ identity ++ " deleted."))])
    else unknownReply)

/-! ## Trying requests out -/

/-- What is wrong with the description of a request to try out. -/
inductive RehearsalProblem
  | noUrl
  | notAnObject (entry : Text)
deriving DecidableEq, Repr

/-- The wording of a problem. -/
def RehearsalProblem.message : RehearsalProblem → Text
  | noUrl => "url is required"
  | notAnObject entry => entry ++ " must be an object"

/-- The parameters of an entry: an object, or an empty one in place of something vacant. -/
def rehearsalParameters (entries : Entries) (name : Text) : Except RehearsalProblem Value :=
  match (entries.get? name).getD .null with
  | .object identity parameters => .ok (.object identity parameters)
  | value => if value.isVacant then .ok (.ofEntries []) else .error (.notAnObject name)

/-- The request that a payload describes; its method and URL are shown in full. -/
def rehearsal (payload : Value) : Except RehearsalProblem (Except Failure DispatchRequest) := do
  let .object _ entries := payload | throw .noUrl
  let url := (Table.get? entries "url").getD .null
  if url.isVacant then throw .noUrl
  let path ← rehearsalParameters entries "pathParams"
  let query ← rehearsalParameters entries "queryParams"
  return do
    let method ← ((Table.get? entries "method").getD (.text "GET")).shown
    return ⟨method, ← url.shown, path, query, (Table.get? entries "body").getD (.ofEntries [])⟩

/-- The reply that reports on a request tried out. -/
def rehearsalReply (clock : Clock) (server : Server) (payload : Value) :
    Waited (Except ServiceFailure Reply) :=
  match rehearsal payload with
  | .error problem => ⟨[], Reply.json 400 [] (.ofEntries [("error", .text problem.message)])⟩
  | .ok (.error failure) => ⟨[], .error (.failed failure)⟩
  | .ok (.ok request) =>
    let outcome := Dispatch.dispatch server.settings.dispatch server.registry request
    ⟨outcome.slept, do
      let result ← outcome.value.mapError .dispatch
      Reply.json 200 [] (← (result.report clock.latency).mapError .failed)⟩

/-! ## All actions -/

/-- The server after a reset, and the reply. -/
def resetWithReply (clock : Clock) (server : Server) : Server × Except ServiceFailure Reply :=
  (server.reset clock, Reply.json 200 [] (.ofEntries [
    ("message", .text "All data cleared successfully"),
    ("deletedEndpoints", .int server.registry.clear.2),
    ("demoEndpointsAdded", .int (seeds server.settings).length)]))

/-- Goes on with the content of a request, if it has one. -/
def withContent {α : Type} (server : Server) (request : HttpRequest)
    (next : Value → Server × Waited (Except ServiceFailure α)) :
    Server × Waited (Except ServiceFailure α) :=
  match request.content with
  | .ok content => next content
  | .error failure => (server, ⟨[], .error (.failed failure)⟩)

theorem withContent_of_ok {α : Type} {server : Server} {request : HttpRequest} {content : Value}
    (h : request.content = .ok content)
    (next : Value → Server × Waited (Except ServiceFailure α)) :
    server.withContent request next = next content := by
  rw [withContent, h]

/-- The server after an action, and the reply. -/
def administer [Framework] (clock : Clock) (server : Server) (request : HttpRequest) :
    AdminAction → Server × Waited (Except ServiceFailure Reply)
  | .health => (server, ⟨[], server.healthReply clock⟩)
  | .metrics => (server, ⟨[], server.metricsReply clock⟩)
  | .list => (server, ⟨[], server.listReply⟩)
  | .save => server.withContent request fun payload ↦
    let (server, reply) := server.save clock payload
    (server, ⟨[], reply⟩)
  | .load => server.withContent request fun document ↦
    let (server, reply) := server.load clock document
    (server, ⟨[], reply⟩)
  | .look => match request.parameter? "id" with
    | some identity => (server, ⟨[], server.lookReply identity⟩)
    | none => (server, ⟨[], Framework.missing "id"⟩)
  | .delete => match request.parameter? "id" with
    | some identity =>
      let (server, reply) := server.delete identity
      (server, ⟨[], reply⟩)
    | none => (server, ⟨[], Framework.missing "id"⟩)
  | .rehearse => server.withContent request fun payload ↦
    (server, server.rehearsalReply clock payload)
  | .reset =>
    let (server, reply) := server.resetWithReply clock
    (server, ⟨[], reply⟩)

end Server

end MockApi
