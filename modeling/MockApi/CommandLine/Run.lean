import MockApi.CommandLine.Command
import MockApi.Definitions.Review
import MockApi.Server.Basic
import MockApi.Settings.Source

/-!
# Running commands

A command is run on the files and the environment that it finds, and leaves what it prints, an exit
code, the delays that it waited for, and the listeners that it starts. Listening itself is not done
here: a listener is told on what to listen, and the server behind it is `Server.answer`.

Output is encoded for the terminal line by line. A line that the terminal cannot take ends the
command, and the lines before it are printed. Complaints about definitions and settings are printed
as well, and always can be, because code points that the terminal cannot take are escaped in them;
other failures are the outcome themselves.
-/

namespace MockApi.CommandLine

/-- What output is printed on. -/
structure Terminal where
  /-- Whether a code point can be printed. -/
  takes : Nat → Bool
  /-- ASCII can be printed. -/
  takes_of_lt {c : Nat} (h : c < 0x80) : takes c = true

/-- A terminal that takes UTF-8, and so everything but surrogates. -/
def Terminal.utf8 : Terminal where
  takes c := !Text.isSurrogate c
  takes_of_lt h := by
    simp [Text.isSurrogate]
    omega

/-- What a command finds around it. -/
structure Surroundings where
  /-- The files. -/
  files : File.Files
  /-- The variables of the environment. -/
  environment : Environment
  /-- Where times come from. -/
  clock : Clock
  /-- Whether a listener is interrupted as soon as it is started. -/
  interrupted : Bool
  /-- What output is printed on. -/
  terminal : Terminal

/-- A listener to be started. -/
structure Listener where
  /-- The host to listen on. -/
  host : Value
  /-- The port to listen on. -/
  port : Value
  /-- How much the listener logs. -/
  logLevel : Value
  /-- Whether the listener logs every request. -/
  accessLog : Bool

/-- What a command leaves. -/
structure Outcome where
  /-- The exit code. -/
  exitCode : Nat
  /-- What is printed as output. -/
  output : Text
  /-- What is printed as complaints. -/
  complaints : Text
  /-- The seconds that were slept. -/
  slept : List Double
  /-- The listeners that are started. -/
  listeners : List Listener

/-- Why a command has no outcome. -/
inductive CommandFailure
  /-- An option has a value that nothing can be done with. -/
  | settings (error : SettingsError)
  /-- Something is beyond a limit. -/
  | failed (failure : Failure)
  /-- Dispatching the request failed. -/
  | dispatch (failure : DispatchFailure)
  /-- The terminal cannot take a line of the output; this was printed before. -/
  | notPrintable (printed : Text)

/-- The outcome of a command that only prints. -/
def Outcome.printing (exitCode : Nat) (output complaints : Text) : Outcome :=
  ⟨exitCode, output, complaints, [], []⟩

/-- The text of some lines, each with its end. -/
def linesText (lines : List Text) : Text := lines.flatMap (· ++ [Text.lineFeed])

/-- Prints some lines, up to the first one that the terminal cannot take. -/
def Terminal.print (terminal : Terminal) (lines : List Text) : Except CommandFailure Text :=
  let printable := lines.takeWhile (·.all terminal.takes)
  if printable.length = lines.length then .ok (linesText lines)
  else .error (.notPrintable (linesText printable))

/-! ## Usage -/

/-- How the program is used. -/
def usage : Text := linesText ["usage: mockingbird [-h] [--version] serve | validate | call ...",
  "  serve [files ...] [--config FILE] [--host HOST] [-p PORT] [--api-prefix PREFIX]",
  "        [--render-mode MODE] [--no-admin] [--no-demo] [--log-level LEVEL]",
  "  validate files ...",
  "  call method url [files ...] [--path-params JSON] [--query-params JSON] [--body JSON]",
  "        [--api-prefix PREFIX] [--render-mode MODE] [--no-delay]"]

/-- The outcome of a command line that asks for no command. -/
def Stop.outcome : Stop → Outcome
  | help => .printing 0 usage []
  | version => .printing 0 (linesText ["mockingbird " ++ MockApi.version]) []
  | misuse => .printing 2 [] usage

/-! ## Complaints -/

/-- The complaint about settings, unless the error is none of theirs. -/
def settingsComplaint (error : SettingsError) : Except CommandFailure Text :=
  match error with
  | .notText _ | .badType _ | .unknownArgument _ => .error (.settings error)
  | .failed failure => .error (.failed failure)
  | error => .ok ((error.message?).getD [])

/-- The complaint about a file of definitions, unless the failure is beyond it. -/
def loadComplaint (error : LoadError) : Except CommandFailure Text :=
  match error with
  | .failed failure => .error (.failed failure)
  | error => .ok ((error.message?).getD [])

/-- The complaint about a server. -/
def serverComplaint : ServerError → Except CommandFailure Text
  | .settings error => .error (.settings error)
  | .load error => loadComplaint error

/-- The outcome of a command that gives up with a complaint. -/
def givingUp (head complaint : Text) : Outcome :=
  .printing 1 [] (linesText [head ++ complaint])

/-! ## Serving -/

/-- The options with those of the command line on top. -/
def overridden (arguments : ServeArguments) (options : Options) : Except SettingsError Options := do
  let override (options : Options) (name : OptionName) (value? : Option Value) : Options :=
    match value? with
    | some value => options.set name value
    | none => options
  let options := override options .host (arguments.host?.map .text)
  let options := override options .port (arguments.port?.map .int)
  let options := override options .apiPrefix (arguments.apiPrefix?.map .text)
  let options := override options .renderMode (arguments.renderMode?.map .text)
  let options := override options .logLevel (arguments.logLevel?.map .text)
  let options := if arguments.noAdmin then options.set .adminEnabled (.bool false) else options
  let options := if arguments.noDemo then options.set .seedDemo (.bool false) else options
  let files ← Settings.elements (options .definitionFiles)
  return options.set .definitionFiles (.ofItems (files ++ arguments.files.map .text))

variable [YamlLibrary]

variable [Stack]

/-- The settings to serve with: those of the file, the environment and the command line, each on
top of the one before. -/
def serveSettings (around : Surroundings) (arguments : ServeArguments) :
    Except SettingsError Settings := do
  let options ← match arguments.config? with
    | none | some [] => pure Options.default
    | some path => do pure (← Settings.ofFile around.files path).options
  let settings ← Settings.ofEnvironment around.environment options
  Settings.ofOptions (← overridden arguments settings.options)

/-- What a server announces when it starts. -/
def banner (server : Server) : Except Failure (List Text) := do
  let options := server.settings.options
  let address := (← (options .host).shown) ++ ":" ++ (← (options .port).shown)
  let admin : List Text := if server.settings.adminEnabled then
    ["   Admin API: http://" ++ address ++ server.settings.adminPrefix ++ "/endpoints"] else []
  let start : List Text := ["Mockingbird Mock Server starting...", "   Host: " ++ address,
    "   Endpoints loaded: " ++ Text.ofNat server.registry.size,
    "   Render mode: " ++ server.settings.renderMode.name]
  return start ++ admin ++ [[]]

/-- Serves endpoints. -/
def serve (around : Surroundings) (arguments : ServeArguments) : Except CommandFailure Outcome :=
  match serveSettings around arguments with
  | .error error => do return givingUp "Invalid configuration: " (← settingsComplaint error)
  | .ok settings =>
    match Server.start around.clock around.files settings with
    | .error error => do return givingUp "Failed to create mock server: " (← serverComplaint error)
    | .ok server => do
      let announced ← around.terminal.print (← (banner server).mapError .failed)
      let stopped : Text := if around.interrupted then linesText [[], "Mock server stopped"] else []
      return ⟨0, announced ++ stopped, [], [], [⟨settings.options .host, settings.options .port,
        settings.options .logLevel, true⟩]⟩

/-! ## Validating -/

/-- What validating files has found. -/
structure Findings where
  /-- The number of endpoints. -/
  checked : Nat
  /-- The errors, with their files. -/
  errors : List Text
  /-- The warnings, with their files. -/
  warnings : List Text
deriving DecidableEq, Repr

/-- Nothing found. -/
def Findings.empty : Findings := ⟨0, [], []⟩

/-- The findings with those of one more file. -/
def Findings.addFile (files : File.Files) (findings : Findings) (path : Text) :
    Except CommandFailure Findings :=
  match Definitions.load files path with
  | .error error => do
    return { findings with errors := findings.errors ++ [← loadComplaint error] }
  | .ok endpoints =>
    let issues := Definitions.review endpoints
    let located (issue : Issue) : Text := path ++ ": " ++ issue.message
    .ok ⟨findings.checked + endpoints.length,
      findings.errors ++ (Definitions.errors issues).map located,
      findings.warnings ++ (Definitions.warnings issues).map located⟩

/-- A list of messages under a heading; nothing for no messages. -/
def messageList (heading : Text) (messages : List Text) : List Text :=
  if messages.isEmpty then [] else heading :: messages.map ("   - " ++ ·)

/-- The lines that are printed about findings. -/
def Findings.report (findings : Findings) : List Text :=
  let total : Text := "Endpoints checked: " ++ Text.ofNat findings.checked
  let passed : List Text := if findings.errors.isEmpty && findings.warnings.isEmpty then
    ["All validations passed!"] else []
  total :: messageList "Errors found:" findings.errors
    ++ messageList "Warnings:" findings.warnings ++ passed

/-- Validates files of definitions. -/
def validate (around : Surroundings) (paths : List Text) : Except CommandFailure Outcome := do
  let findings ← paths.foldlM (Findings.addFile around.files) .empty
  let output ← around.terminal.print findings.report
  return .printing (if findings.errors.isEmpty then 0 else 1) output []

/-! ## Answering a request -/

/-- Why a request is not dispatched. -/
inductive CallError
  /-- An option is no JSON. -/
  | notJson (option detail : Text)
  /-- An option is no object. -/
  | notAnObject (option : Text)
  /-- A file of definitions is at fault. -/
  | load (error : LoadError)
  /-- An option is beyond a limit. -/
  | failed (failure : Failure)

/-- The value of an option in JSON, or `null` if it is not given. -/
def jsonOption (option : Text) : Option Text → Except CallError Value
  | none => .ok .null
  | some t => match Json.read true t with
    | .ok value => .ok value
    | .error (.failed failure) => .error (.failed failure)
    | .error fault => .error (.notJson option ((Json.faultMessage? t fault).getD []))

/-- An object, or `null`. -/
def objectOption (option : Text) : Value → Except CallError Value
  | .null => .ok .null
  | .object identity entries => .ok (.object identity entries)
  | _ => .error (.notAnObject option)

/-- What a request is dispatched with: the endpoints and the request. -/
def prepare (files : File.Files) (arguments : CallArguments) :
    Except CallError (List Endpoint × DispatchRequest) := do
  let path ← jsonOption "--path-params" arguments.pathParams?
  let query ← jsonOption "--query-params" arguments.queryParams?
  let body ← jsonOption "--body" arguments.body?
  let path ← objectOption "--path-params" path
  let query ← objectOption "--query-params" query
  let endpoints ← if arguments.files.isEmpty then pure Definitions.demo
    else (Definitions.loadAll files arguments.files).mapError .load
  let body := match body with
    | .null => .ofEntries []
    | value => value
  return (endpoints, ⟨arguments.method, arguments.url, path, query, body⟩)

/-- The complaint about the arguments of a request. -/
def CallError.complaint : CallError → Except CommandFailure Text
  | notJson option detail => .ok (option ++ " must be valid JSON: " ++ detail)
  | notAnObject option => .ok (option ++ " must be a JSON object")
  | load error => loadComplaint error
  | failed failure => .error (.failed failure)

/-- The registry with endpoints registered one after another, each at a time of its own. -/
def registryOf (clock : Clock) (endpoints : List Endpoint) : Registry :=
  (endpoints.foldl (fun (registry, reading) endpoint ↦
    (Registry.upsert registry endpoint (clock.stamp reading), reading + 1))
    (Registry.empty, 1)).1

/-- Answers a request. -/
def call (around : Surroundings) (arguments : CallArguments) : Except CommandFailure Outcome :=
  match prepare around.files arguments with
  | .error error => do return givingUp "Error: " (← error.complaint)
  | .ok (endpoints, request) => do
    let outcome := Dispatch.dispatch ⟨arguments.apiPrefix, arguments.renderMode⟩
      (registryOf around.clock endpoints) request
    let result ← outcome.value.mapError .dispatch
    let report ← (result.report around.clock.latency).mapError .failed
    let text ← (Json.write .readable report).mapError .failed
    return ⟨if result.error?.isNone then 0 else 1, ← around.terminal.print [text], [],
      if arguments.noDelay then [] else outcome.slept, []⟩

/-! ## Command lines -/

/-- Runs a command. -/
def Command.run (around : Surroundings) : Command → Except CommandFailure Outcome
  | serve arguments => CommandLine.serve around arguments
  | validate files => CommandLine.validate around files
  | call arguments => CommandLine.call around arguments
  | nothing => .ok (.printing 1 usage [])

/-- Runs a command line. -/
def run (around : Surroundings) (line : List Text) : Except CommandFailure Outcome :=
  match Command.ofLine line with
  | .ok command => command.run around
  | .error stop => .ok stop.outcome

/-- The files that a command line asks for, as far as they are known from the files read so far. -/
def filesWanted (around : Surroundings) (line : List Text) : List Text :=
  match Command.ofLine line with
  | .ok (.validate files) => files
  | .ok (.call arguments) => arguments.files
  | .ok (.serve arguments) =>
    let named := match (serveSettings around arguments).toOption with
      | some settings => (Settings.definitionPaths settings.options).toOption.getD []
      | none => []
    arguments.config?.toList ++ arguments.files ++ named
  | .ok .nothing | .error _ => []

/-- A command line with a misuse has the exit code for it. -/
theorem run_of_misuse {line : List Text} (h : Command.ofLine line = .error .misuse)
    (around : Surroundings) : run around line = .ok (.printing 2 [] usage) := by
  simp [run, h, Stop.outcome]

end MockApi.CommandLine
