import MockApi.Route.Policy
import MockApi.Template.Render
import MockApi.Value.Shown

/-!
# Options

The options of a server as they were given: any value under each name, since they arrive from
documents and environments and are checked only later, by `Settings.ofOptions`. An option that is
not given has its default.
-/

namespace MockApi

/-- The names of the options. -/
inductive OptionName
  | host
  | port
  | logLevel
  | apiPrefix
  | routePolicy
  | renderMode
  | adminEnabled
  | adminPrefix
  | seedDemo
  | definitionFiles
deriving DecidableEq, Repr

namespace OptionName

/-- The name as it is written in documents. -/
def spelling : OptionName → Text
  | host => "host"
  | port => "port"
  | logLevel => "log_level"
  | apiPrefix => "api_prefix"
  | routePolicy => "route_policy"
  | renderMode => "render_mode"
  | adminEnabled => "admin_enabled"
  | adminPrefix => "admin_prefix"
  | seedDemo => "seed_demo"
  | definitionFiles => "definition_files"

/-- All names, in the order in which options are read. -/
def all : List OptionName :=
  [host, port, logLevel, apiPrefix, routePolicy, renderMode, adminEnabled, adminPrefix, seedDemo,
    definitionFiles]

/-- The name written in a document. -/
def ofSpelling? (t : Text) : Option OptionName := all.find? (·.spelling = t)

theorem ofSpelling?_spelling (name : OptionName) : ofSpelling? name.spelling = some name := by
  cases name <;> decide

end OptionName

/-- A value for every option. -/
abbrev Options := OptionName → Value

namespace Options

/-- The defaults. -/
def default : Options
  | .host => .text "127.0.0.1"
  | .port => .int 5000
  | .logLevel => .text "info"
  | .apiPrefix => .text "/api"
  | .routePolicy => .text RoutePolicy.firstMatch.name
  | .renderMode => .text RenderMode.singlePass.name
  | .adminEnabled => .bool true
  | .adminPrefix => .text "/__admin__"
  | .seedDemo => .bool true
  | .definitionFiles => .ofItems []

/-- The options with one of them given another value. -/
def set (options : Options) (name : OptionName) (value : Value) : Options :=
  fun other ↦ if other = name then value else options other

/-- The options with those of a table given other values. Names that belong to no option are
passed over. -/
def setEntries (options : Options) (entries : Entries) : Options :=
  entries.foldl (fun options (name, value) ↦ match OptionName.ofSpelling? name with
    | some name => options.set name value
    | none => options) options

/-- The options as an object. -/
def toValue (options : Options) : Value :=
  .ofEntries (OptionName.all.map fun name ↦ (name.spelling, options name))

@[simp] theorem set_self (options : Options) (name : OptionName) (value : Value) :
    options.set name value name = value := by
  simp [set]

theorem set_of_ne (options : Options) {name other : OptionName} (value : Value)
    (h : other ≠ name) : options.set name value other = options other := by
  simp [set, h]

end Options

end MockApi
