import MockApi.Number.Numeral
import MockApi.Route.Dispatch
import MockApi.Settings.Options

/-!
# Settings

Settings are options that have been checked, with what the checks have made of them. The checks come
in a fixed order and the first complaint counts: rendering, routing, logging, the port and the
prefixes. Some options are taken in any form that serves, so a port may be given as text and a
missing prefix as `null`; the given forms are kept, because they are shown and passed on.
-/

namespace MockApi

/-- How much is logged. -/
inductive LogLevel
  | debug
  | info
  | warning
  | error
deriving DecidableEq, Repr

namespace LogLevel

/-- The name of a level. -/
def name : LogLevel → Text
  | debug => "debug"
  | info => "info"
  | warning => "warning"
  | error => "error"

/-- All levels. -/
def all : List LogLevel := [debug, info, warning, error]

/-- The level of a name in any case. -/
def ofName? (t : Text) : Option LogLevel := all.find? (·.name = t.toAsciiLower)

/-- The number that stands for a level. -/
def number : LogLevel → Nat
  | debug => 10
  | info => 20
  | warning => 30
  | error => 40

end LogLevel

/-- Why options make no settings. -/
inductive SettingsError
  /-- Some names belong to no option. -/
  | unknownOptions (names : List Text)
  /-- The render mode is none of the known ones. -/
  | unknownRenderMode (given : Text)
  /-- The route policy is none of the known ones. -/
  | unknownRoutePolicy (given : Text)
  /-- The log level is none of the known ones. -/
  | unknownLogLevel (given : Text)
  /-- The port is no port. -/
  | portOutOfRange (given : Text)
  /-- The port in the environment is no integer. -/
  | portNotAnInteger (given : Text)
  /-- A prefix does not begin with a slash. -/
  | prefixWithoutSlash (name : OptionName) (given : Text)
  /-- There is no file of settings. -/
  | fileMissing (path : Text)
  /-- There is a directory in place of the file of settings. -/
  | fileIsDirectory (path : Text)
  /-- The file of settings is no YAML; the complaint has a wording. -/
  | notYaml (path detail : Text)
  /-- The file of settings holds something other than a mapping. -/
  | notAMapping (path : Text)
  /-- There are names of options without values. -/
  | valuesMissing
  /-- A name stands for no option that can be given as an argument. -/
  | unknownArgument (name : Text)
  /-- An option that has to be a text is none. -/
  | notText (name : OptionName)
  /-- An option is of a type that nothing can be done with. -/
  | badType (name : OptionName)
  /-- An option could not be turned into what it has to be. -/
  | failed (failure : Failure)
deriving DecidableEq, Repr

namespace SettingsError

/-- The complaint about an option that is none of the known values. -/
def choiceMessage (name : OptionName) (choices : List Text) (given : Text) : Text :=
  name.spelling ++ " must be one of " ++ Text.join ", " choices ++ ", got '" ++ given ++ "'"

/-- The wording of an error; some go without words. -/
def message? : SettingsError → Option Text
  | unknownOptions names => some ("Unknown config option(s): " ++ Text.join ", " names)
  | unknownRenderMode given =>
    some (choiceMessage .renderMode (RenderMode.all.map RenderMode.name) given)
  | unknownRoutePolicy given =>
    some (choiceMessage .routePolicy (RoutePolicy.all.map RoutePolicy.name) given)
  | unknownLogLevel given => some (choiceMessage .logLevel (LogLevel.all.map LogLevel.name) given)
  | portOutOfRange given => some ("port must be between 1 and 65535, got " ++ given)
  | portNotAnInteger given =>
    some ("MOCKINGBIRD_PORT must be an integer, got '" ++ given ++ "'")
  | prefixWithoutSlash name given =>
    some (name.spelling ++ " must start with '/', got '" ++ given ++ "'")
  | fileMissing path => some ("[Errno 2] No such file or directory: " ++ path.quoted)
  | fileIsDirectory path => some ("[Errno 21] Is a directory: " ++ path.quoted)
  | notAMapping path => some ("Config file " ++ path ++ " must contain a mapping")
  | notYaml path detail => some ("Cannot parse config file " ++ path ++ ": " ++ detail)
  | valuesMissing | unknownArgument _ | notText _ | badType _ => none
  | failed failure => failure.message?

end SettingsError

/-- Options that have passed all checks, with what was found out on the way. -/
structure Settings where
  /-- The options as they were given. -/
  options : Options
  /-- The mode in which templates are filled in. -/
  renderMode : RenderMode
  /-- The policy of routing. -/
  routePolicy : RoutePolicy
  /-- The log level as it was given. -/
  logLevelName : Text
  /-- The log level. -/
  logLevel : LogLevel
  /-- The port. -/
  port : Nat
  /-- The path below which the admin routes are. -/
  adminPrefix : Text
  /-- The prefix that the paths of all requests share; empty for none. -/
  pathPrefix : Text

namespace Settings

/-! ## Single options -/

variable [Stack]

/-- An option as it is put into messages. -/
def given (options : Options) (name : OptionName) : Except SettingsError Text :=
  (options name).shown.mapError .failed

/-- An option that has to be a text. -/
def textOf (options : Options) (name : OptionName) : Except SettingsError Text :=
  match options name with
  | .text t => .ok t
  | _ => .error (.notText name)

/-- The choice that an option makes, or else a complaint about it. -/
def choice {α : Type} (options : Options) (name : OptionName) (ofName? : Text → Option α)
    (complaint : Text → SettingsError) : Except SettingsError α := do
  let found := match options name with
    | .text t => ofName? t
    | _ => none
  match found with
  | some a => return a
  | none => throw (complaint (← given options name))

/-- The integer that an option stands for. -/
def integerOf (name : OptionName) : Value → Except SettingsError Int
  | .bool b => .ok b.toNat
  | .number (.int n) => .ok n
  | .number (.double x) => match x.truncate? with
    | some n => .ok n
    | none => .error (.failed (if x.isNaN then .numberNotFinite else .integerTooLarge))
  | .text t => (integerOfText t).mapError .failed
  | _ => .error (.badType name)

/-- The port of some options. -/
def portOf (options : Options) : Except SettingsError Nat := do
  let n ← integerOf .port (options .port)
  if 0 < n && n < 65536 then return n.toNat
  else throw (.portOutOfRange (← given options .port))

/-- A prefix, which begins with a slash. -/
def prefixOf (options : Options) (name : OptionName) : Except SettingsError Text := do
  let t ← textOf options name
  if t.head? = some '/'.toNat then return t else throw (.prefixWithoutSlash name t)

/-- The things that a value holds one after another: items, keys or code points. -/
def elements : Value → Except SettingsError (List Value)
  | .list _ items => .ok items
  | .object _ entries => .ok (entries.map fun (key, _) ↦ .text key)
  | .text t => .ok (t.map fun c ↦ .text [c])
  | _ => .error (.badType .definitionFiles)

/-- The paths of the files of definitions, which are known once the settings are used. -/
def definitionPaths (options : Options) : Except SettingsError (List Text) := do
  (← elements (options .definitionFiles)).mapM fun
    | .text t => .ok t
    | _ => .error (.badType .definitionFiles)

/-! ## All options -/

/-- The settings that options make. -/
def ofOptions (options : Options) : Except SettingsError Settings := do
  let renderMode ← choice options .renderMode RenderMode.ofName? .unknownRenderMode
  let routePolicy ← choice options .routePolicy RoutePolicy.ofName? .unknownRoutePolicy
  let logLevelName ← textOf options .logLevel
  let logLevel ← match LogLevel.ofName? logLevelName with
    | some level => pure level
    | none => throw (.unknownLogLevel logLevelName)
  let port ← portOf options
  let adminPrefix ← prefixOf options .adminPrefix
  let pathPrefix ←
    if (options .apiPrefix).isVacant then pure [] else prefixOf options .apiPrefix
  return ⟨options, renderMode, routePolicy, logLevelName, logLevel, port, adminPrefix, pathPrefix⟩

/-- Whether the admin routes are there. -/
def adminEnabled (settings : Settings) : Bool := !(settings.options .adminEnabled).isVacant

/-- Whether the demonstration endpoints are there from the start. -/
def seedDemo (settings : Settings) : Bool := !(settings.options .seedDemo).isVacant

/-- How requests are dispatched under the settings. -/
def dispatch (settings : Settings) : DispatchSettings := ⟨settings.pathPrefix, settings.renderMode⟩

/-- The port of settings is between 1 and 65535. -/
theorem portOf_range {options : Options} {port : Nat} (h : portOf options = .ok port) :
    0 < port ∧ port < 65536 := by
  unfold portOf at h
  cases hn : integerOf .port (options .port) with
  | error e =>
    rw [hn] at h
    cases h
  | ok n =>
    rw [hn] at h
    by_cases hr : (0 < n && n < 65536) = true
    · have : port = n.toNat := by
        simp [bind, Except.bind, hr, pure, Except.pure] at h
        exact h.symm
      simp at hr
      omega
    · cases hg : given options .port <;>
        simp [bind, Except.bind, hr, hg, throw, throwThe, MonadExceptOf.throw] at h

end Settings

end MockApi
