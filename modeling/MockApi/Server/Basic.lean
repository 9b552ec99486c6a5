import MockApi.Definitions.Demo
import MockApi.Definitions.File
import MockApi.Route.Registry
import MockApi.Server.Metrics
import MockApi.Settings.Basic

/-!
# Servers

A server holds a registry and metrics under fixed settings. It starts with the demonstration
endpoints, if the settings want them, and those of its files of definitions, and a reset brings it
back to the former.

Time comes from outside: a clock gives the text of every reading, and how long things take. The
server counts the readings that it has made for its registry, so that each registration has a time
of its own.
-/

namespace MockApi

/-- The version of the program. -/
def version : Text := "1.0.0"

/-- Where times come from, while a server starts or answers a request. -/
structure Clock where
  /-- The time of the reading of a number, counted from one. -/
  stamp : Nat → Text
  /-- The time at which the server starts or answers. -/
  now : Text
  /-- The seconds that have gone by since a time, to two places. -/
  since : Text → Double
  /-- The milliseconds that dispatching a request takes, to two places. -/
  latency : Double

/-- A clock that stands still at a time. -/
def Clock.stopped (time : Text) : Clock :=
  ⟨fun _ ↦ time, time, fun _ ↦ .zeroOf false, .zeroOf false⟩

/-- A running server. -/
structure Server where
  /-- The settings. -/
  settings : Settings
  /-- The registry. -/
  registry : Registry
  /-- The metrics. -/
  metrics : Metrics
  /-- The number of readings of the clock made so far. -/
  readings : Nat

/-- Why a server could not start. -/
inductive ServerError
  /-- The settings are at fault. -/
  | settings (error : SettingsError)
  /-- A file of definitions is at fault. -/
  | load (error : LoadError)

/-- The wording of an error; some go without words. -/
def ServerError.message? : ServerError → Option Text
  | settings error => error.message?
  | load error => error.message?

namespace Server

/-- The server with an endpoint registered at the next reading of the clock. -/
def upsert (clock : Clock) (server : Server) (endpoint : Endpoint) : Server :=
  { server with
    registry := server.registry.upsert endpoint (clock.stamp (server.readings + 1))
    readings := server.readings + 1 }

/-- The server with several endpoints registered one after another. -/
def upsertAll (clock : Clock) (server : Server) (endpoints : List Endpoint) : Server :=
  endpoints.foldl (upsert clock) server

/-- The server with an endpoint registered at the next reading of the clock, and whether its
identity is new. -/
def register (clock : Clock) (server : Server) (endpoint : Endpoint) : Server × Bool :=
  let readings := server.readings + 1
  let (registry, _, created) := server.registry.save endpoint (clock.stamp readings)
  ({ server with registry, readings }, created)

/-- The server with several endpoints registered one after another, and how many of them brought a
new identity. -/
def registerAll (clock : Clock) (server : Server) : List Endpoint → Server × Nat
  | [] => (server, 0)
  | endpoint :: endpoints =>
    let (server, created) := server.register clock endpoint
    let (server, count) := registerAll clock server endpoints
    (server, count + created.toNat)

/-- The endpoints that a server begins with under its settings. -/
def seeds (settings : Settings) : List Endpoint :=
  if settings.seedDemo then Definitions.demo else []

/-- The server with nothing but its demonstration endpoints, and nothing counted. -/
def reset (clock : Clock) (server : Server) : Server :=
  upsertAll clock { server with registry := server.registry.clear.1, metrics := .zero clock.now }
    (seeds server.settings)

/-- The endpoints of the files that an option gives, in order. -/
def loadFiles [Stack] [YamlLibrary] (files : File.Files) :
    List Value → Except ServerError (List Endpoint)
  | [] => .ok []
  | .text path :: paths => do
    let endpoints ← (Definitions.load files path).mapError .load
    return endpoints ++ (← loadFiles files paths)
  | _ :: _ => .error (.settings (.badType .definitionFiles))

/-- The server that starts under some settings. -/
def start [Stack] [YamlLibrary] (clock : Clock) (files : File.Files) (settings : Settings) :
    Except ServerError Server := do
  let server := reset clock ⟨settings, .empty, .zero clock.now, 0⟩
  let paths ← (Settings.elements (settings.options .definitionFiles)).mapError .settings
  return server.upsertAll clock (← loadFiles files paths)

/-- Counting the new identities changes nothing about the registering. -/
theorem registerAll_fst (clock : Clock) (server : Server) (endpoints : List Endpoint) :
    (server.registerAll clock endpoints).1 = server.upsertAll clock endpoints := by
  induction endpoints generalizing server with
  | nil => rfl
  | cons endpoint endpoints ih => exact ih (server.upsert clock endpoint)

/-- Registering changes nothing but the registry and the count of readings. -/
theorem upsertAll_settings (clock : Clock) (server : Server) (endpoints : List Endpoint) :
    (server.upsertAll clock endpoints).settings = server.settings := by
  induction endpoints generalizing server with
  | nil => rfl
  | cons e es ih => exact ih (server.upsert clock e)

theorem upsertAll_metrics (clock : Clock) (server : Server) (endpoints : List Endpoint) :
    (server.upsertAll clock endpoints).metrics = server.metrics := by
  induction endpoints generalizing server with
  | nil => rfl
  | cons e es ih => exact ih (server.upsert clock e)

end Server

end MockApi
