import MockApi.File.Path
import MockApi.File.Yaml
import MockApi.Settings.Basic
import MockApi.Text.Line
import MockApi.Value.Order

/-!
# Where settings come from

Options are given as an object, as a YAML file that holds one, as arguments, or as variables of the
environment, which are put on top of other options. An object may not have names that belong to no
option; variables that belong to none are not looked at.
-/

namespace MockApi

/-- The variables of an environment. -/
abbrev Environment := Table Text

namespace Settings

/-! ## Objects -/

/-- The names of a table that belong to no option, sorted. -/
def unknownNames (entries : Entries) : List Text :=
  (entries.names.filter fun name ↦ (OptionName.ofSpelling? name).isNone).mergeSort
    fun s t ↦ (Text.order s t).isLE

/-- A single path stands for the list with this path. -/
def singlePath (options : Options) : Options :=
  match options .definitionFiles with
  | .text t => options.set .definitionFiles (.ofItems [.text t])
  | _ => options

/-- The options of an object. -/
def optionsOfEntries (entries : Entries) : Except SettingsError Options :=
  match unknownNames entries with
  | [] => .ok (singlePath (Options.default.setEntries entries))
  | names => .error (.unknownOptions names)

variable [Stack]

/-- The settings of an object. -/
def ofEntries (entries : Entries) : Except SettingsError Settings := do
  ofOptions (← optionsOfEntries entries)

/-- The name of an option that a value holds. -/
def nameOf : Value → Except SettingsError Text
  | .text name => .ok name
  | _ => .error (.badType .host)

/-- The settings of a value. Other than an object, it can only be without any name. -/
def ofValue : Value → Except SettingsError Settings
  | .object _ entries => ofEntries entries
  | value => do
    let names ← (← elements value).mapM nameOf
    match unknownNames (Table.ofList (names.map fun name ↦ (name, Value.null))) with
    | [] => if names.isEmpty then ofEntries [] else throw .valuesMissing
    | unknown => throw (.unknownOptions unknown)

/-! ## Arguments -/

/-- The options that can be given as arguments. -/
def argumentNames : List OptionName :=
  OptionName.all.filter fun name ↦ name ≠ .routePolicy && name ≠ .adminPrefix

/-- The options given as arguments; vacant files stand for no files. -/
def optionsOfArguments (arguments : Entries) : Except SettingsError Options :=
  match arguments.names.find? fun name ↦ !(argumentNames.map OptionName.spelling).contains name with
  | some name => .error (.unknownArgument name)
  | none =>
    let options := Options.default.setEntries arguments
    let files := options .definitionFiles
    if files.isVacant then .ok (options.set .definitionFiles (.ofItems []))
    else do return options.set .definitionFiles (.ofItems (← elements files))

/-- The settings given as arguments. -/
def ofArguments (arguments : Entries) : Except SettingsError Settings := do
  ofOptions (← optionsOfArguments arguments)

/-! ## Files -/

section Files

variable [YamlLibrary]

/-- The settings that the text of a file gives; one that says nothing gives the defaults. -/
def ofYaml (path text : Text) : Except SettingsError Settings :=
  match YamlLibrary.read path (Text.unifyLineEnds text) with
  | .error (.failed failure) => .error (.failed failure)
  | .error (.malformed wording) => .error (.notYaml path wording)
  | .ok (.object _ entries) => ofEntries entries
  | .ok value => if value.isVacant then ofEntries [] else .error (.notAMapping path)

/-- The settings of a file. -/
def ofFile (files : File.Files) (path : Text) : Except SettingsError Settings :=
  match files.read path with
  | .ok text => ofYaml path text
  | .error .missing => .error (.fileMissing path)
  | .error .directory => .error (.fileIsDirectory path)

end Files

/-! ## Environments -/

/-- The variable for an option. -/
def variableName (name : OptionName) : Text := "MOCKINGBIRD_" ++ name.spelling.toUpper

/-- The words that mean yes. -/
def affirmations : List Text := ["1", "true", "yes", "on"]

/-- What a variable says about an option. -/
def ofVariable (name : OptionName) (raw : Text) : Except SettingsError Value :=
  match name with
  | .port => match integerOfText raw with
    | .ok n => .ok (.int n)
    | .error _ => .error (.portNotAnInteger raw)
  | .adminEnabled | .seedDemo => .ok (.bool (affirmations.contains raw.trim.toAsciiLower))
  | .definitionFiles =>
    .ok (.ofItems (((Text.splitOn ':'.toNat raw).filter (· ≠ [])).map .text))
  | _ => .ok (.text raw)

/-- The options with the variables of an environment on top. -/
def applyEnvironment (environment : Environment) (options : Options) :
    Except SettingsError Options :=
  OptionName.all.foldlM (fun options name ↦ do
    match environment.get? (variableName name) with
    | some raw => return options.set name (← ofVariable name raw)
    | none => return options) options

/-- The settings of an environment on top of other options. -/
def ofEnvironment (environment : Environment) (options : Options) :
    Except SettingsError Settings := do
  ofOptions (← applyEnvironment environment options)

end Settings

end MockApi
