import MockApi.CommandLine.Grammar
import MockApi.Settings.Basic

/-!
# Commands

Three commands can be given: to serve endpoints, to validate files of definitions, and to answer a
single request. Each has a grammar of its own, and the first argument names the command.
-/

namespace MockApi.CommandLine

/-- The arguments of the command to serve. -/
structure ServeArguments where
  /-- The files of definitions. -/
  files : List Text
  /-- The file of settings. -/
  config? : Option Text
  /-- The host. -/
  host? : Option Text
  /-- The port. -/
  port? : Option Int
  /-- The prefix that the paths of all requests share. -/
  apiPrefix? : Option Text
  /-- The render mode. -/
  renderMode? : Option Text
  /-- The log level. -/
  logLevel? : Option Text
  /-- Whether there is no administration. -/
  noAdmin : Bool
  /-- Whether there are no demonstration endpoints. -/
  noDemo : Bool
deriving DecidableEq, Repr

/-- The arguments of the command to answer a request. -/
structure CallArguments where
  /-- The method. -/
  method : Text
  /-- The URL. -/
  url : Text
  /-- The files of definitions; none for the demonstration endpoints. -/
  files : List Text
  /-- Explicit path parameters as JSON. -/
  pathParams? : Option Text
  /-- Explicit query parameters as JSON. -/
  queryParams? : Option Text
  /-- The body as JSON. -/
  body? : Option Text
  /-- The prefix that the paths of all requests share. -/
  apiPrefix : Text
  /-- The render mode. -/
  renderMode : RenderMode
  /-- Whether delays are not waited for. -/
  noDelay : Bool
deriving DecidableEq, Repr

/-- What is asked of the program. -/
inductive Command
  /-- To serve endpoints. -/
  | serve (arguments : ServeArguments)
  /-- To validate files of definitions. -/
  | validate (files : List Text)
  /-- To answer a request. -/
  | call (arguments : CallArguments)
  /-- Nothing. -/
  | nothing
deriving DecidableEq, Repr

/-! ## Grammars -/

/-- Any text is accepted. -/
def acceptsAny (_ : Text) : Bool := true

/-- Texts that write an integer are accepted. -/
def acceptsInteger (t : Text) : Bool := (integerOfText t).toOption.isSome

/-- The names of render modes are accepted. -/
def acceptsRenderMode (t : Text) : Bool := (RenderMode.ofName? t).isSome

/-- The names of log levels, in lower case, are accepted. -/
def acceptsLogLevel (t : Text) : Bool := (LogLevel.all.map LogLevel.name).contains t

/-- The option that asks for help. -/
def helpOption : OptionSpec := ⟨"--help", some "-h", .help⟩

/-- The grammar of the whole command line: a command and what belongs to it. -/
def mainGrammar : Grammar :=
  ⟨[helpOption, ⟨"--version", none, .version⟩], [.remainder]⟩

/-- The grammar of the command to serve. -/
def serveGrammar : Grammar :=
  ⟨[helpOption, ⟨"--config", none, .value acceptsAny⟩, ⟨"--host", none, .value acceptsAny⟩,
    ⟨"--port", some "-p", .value acceptsInteger⟩, ⟨"--api-prefix", none, .value acceptsAny⟩,
    ⟨"--render-mode", none, .value acceptsRenderMode⟩, ⟨"--no-admin", none, .switch⟩,
    ⟨"--no-demo", none, .switch⟩, ⟨"--log-level", none, .value acceptsLogLevel⟩], [.any]⟩

/-- The grammar of the command to validate. -/
def validateGrammar : Grammar := ⟨[helpOption], [.atLeastOne]⟩

/-- The grammar of the command to answer a request. -/
def callGrammar : Grammar :=
  ⟨[helpOption, ⟨"--path-params", none, .value acceptsAny⟩,
    ⟨"--query-params", none, .value acceptsAny⟩, ⟨"--body", none, .value acceptsAny⟩,
    ⟨"--api-prefix", none, .value acceptsAny⟩, ⟨"--render-mode", none, .value acceptsRenderMode⟩,
    ⟨"--no-delay", none, .switch⟩], [.one, .one, .any]⟩

/-! ## Commands -/

/-- The command to serve with sorted arguments. -/
def serveCommand (arguments : Arguments) : Command :=
  let value? (name : Text) : Option Text := arguments.values.get? name
  .serve ⟨arguments.positional.flatten, value? "--config", value? "--host",
    (value? "--port").bind fun t ↦ (integerOfText t).toOption, value? "--api-prefix",
    value? "--render-mode", value? "--log-level", arguments.switches.contains "--no-admin",
    arguments.switches.contains "--no-demo"⟩

/-- The prefix that the paths of requests share unless an option says otherwise. -/
def defaultApiPrefix : Text := "/api"

/-- The command to answer a request with sorted arguments. -/
def callCommand (arguments : Arguments) : Except Stop Command :=
  let value? (name : Text) : Option Text := arguments.values.get? name
  match arguments.positional with
  | [method] :: [url] :: files =>
    .ok (.call ⟨method, url, files.flatten, value? "--path-params", value? "--query-params",
      value? "--body", (value? "--api-prefix").getD defaultApiPrefix,
      ((value? "--render-mode").bind RenderMode.ofName?).getD .singlePass,
      arguments.switches.contains "--no-delay"⟩)
  | _ => .error .misuse

/-- The arguments after the name of a command under its grammar; every position has to be filled
and nothing may be left over. -/
def parseAll (grammar : Grammar) (line : List Text) (extras : List Text) :
    Except Stop Arguments := do
  let arguments ← grammar.parse line
  if arguments.complete && arguments.extras.isEmpty && extras.isEmpty then return arguments
  else throw .misuse

/-- The command of a command line. -/
def Command.ofLine (line : List Text) : Except Stop Command := do
  let arguments ← mainGrammar.parse line
  match arguments.positional with
  | (name :: rest) :: _ =>
    if name = "serve" then return serveCommand (← parseAll serveGrammar rest arguments.extras)
    else if name = "validate" then
      return .validate (← parseAll validateGrammar rest arguments.extras).positional.flatten
    else if name = "call" then callCommand (← parseAll callGrammar rest arguments.extras)
    else throw .misuse
  | _ => if arguments.extras.isEmpty then return .nothing else throw .misuse

end MockApi.CommandLine
