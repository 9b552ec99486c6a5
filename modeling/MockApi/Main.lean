import MockApi.CommandLine.Run

/-!
# The program

Runs a command line on the files and the environment of the process. Reading, sleeping and printing
are done here and nothing else; the commands themselves are in `CommandLine.run`.
-/

namespace MockApi.Main

open CommandLine

/-- A text as a string. Surrogates, which no string holds, are escaped. -/
def printed (t : Text) : String :=
  String.ofList (t.flatMap fun c ↦
    if Text.isSurrogate c then '\\' :: 'u' :: (Text.hex 4 c).map Char.ofNat else [Char.ofNat c])

variable [Stack]

/-- A library that reads YAML as far as it is JSON, or empty. -/
abbrev jsonLibrary : YamlLibrary where
  read _ text :=
    if text.trim.isEmpty then .ok .null
    else match Json.read true text with
      | .ok value => .ok value
      | .error (.failed failure) => .error (.failed failure)
      | .error fault => .error (.malformed ((Json.faultMessage? text fault).getD []))

/-- The files among some paths that can be read. -/
def readFiles (paths : List Text) : IO File.Files := do
  let mut files : File.Files := []
  for path in paths do
    try
      let text ← IO.FS.readFile (printed path)
      files := files.insert (File.normalPath path) (Text.ofString text)
    catch _ => pure ()
  return files

/-- The variables of the environment that belong to options. -/
def readEnvironment : IO Environment := do
  let mut environment : Environment := []
  for name in OptionName.all do
    let variable_ := Settings.variableName name
    if let some raw ← IO.getEnv (printed variable_) then
      environment := environment.insert variable_ (Text.ofString raw)
  return environment

/-- What a failure without an outcome is called when it ends the program. -/
def failureText : CommandFailure → Text
  | .settings error => error.message?.getD "an option has a value of the wrong type"
  | .failed failure => failure.message?.getD "something is nested too deeply"
  | .dispatch (.failed failure) => failure.message?.getD "something is nested too deeply"
  | .dispatch _ => "the request cannot be dispatched"
  | .notPrintable _ => "the output cannot be encoded"

/-- The milliseconds of a number of seconds. -/
def milliseconds (seconds : Double) : Nat :=
  ((seconds.mul (Double.ofRatio false 1000 1)).truncate?.getD 0).toNat

/-- Runs a command line. Files named in settings are known only once the settings are read, so the
files that are wanted are read twice. -/
def program [YamlLibrary] (args : List String) : IO UInt32 := do
  let line := args.map Text.ofString
  let bare : Surroundings := ⟨[], ← readEnvironment, .stopped [], false, .utf8⟩
  let around := { bare with files := ← readFiles (filesWanted bare line) }
  let around := { around with files := ← readFiles (filesWanted around line) }
  match CommandLine.run around line with
  | .ok outcome =>
    for seconds in outcome.slept do
      IO.sleep (milliseconds seconds).toUInt32
    (← IO.getStdout).putStr (printed outcome.output)
    (← IO.getStderr).putStr (printed outcome.complaints)
    return outcome.exitCode.toUInt32
  | .error failure =>
    if let .notPrintable output := failure then (← IO.getStdout).putStr (printed output)
    (← IO.getStderr).putStrLn (printed (failureText failure))
    return 1

end MockApi.Main

/-- Runs the command line of the process. -/
def main (args : List String) : IO UInt32 :=
  @MockApi.Main.program .usual (@MockApi.Main.jsonLibrary .usual) args
