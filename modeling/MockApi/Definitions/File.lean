import MockApi.Definitions.Document
import MockApi.File.Path
import MockApi.File.Yaml
import MockApi.Json.Reader
import MockApi.Text.Line

/-!
# Files of definitions

A file of definitions holds a document as YAML, if its suffix says so, or else as JSON.
-/

namespace MockApi

/-- Why a file gives no endpoints. Paths are in their normal form. -/
inductive LoadError
  /-- There is no file. -/
  | missing (path : Text)
  /-- There is a directory in place of the file. -/
  | directory (path : Text)
  /-- The file is no YAML; the complaint has a wording. -/
  | notYaml (path detail : Text)
  /-- The file is no JSON; the problem has a wording. -/
  | notJson (path detail : Text)
  /-- The document in the file defines no endpoints. -/
  | document (path : Text) (error : DocumentError)
  /-- A part of the file could not be turned into a value. -/
  | failed (failure : Failure)
deriving DecidableEq, Repr

/-- The complaint about a file that cannot be decoded. -/
def undecodableMessage (path detail : Text) : Text := path ++ ": cannot decode file: " ++ detail

/-- The wording of an error; some failures go without words. -/
def LoadError.message? : LoadError → Option Text
  | missing path => some ("Definition file not found: " ++ path)
  | directory path => some ("[Errno 21] Is a directory: " ++ path.quoted)
  | notYaml path detail | notJson path detail => some (undecodableMessage path detail)
  | document path error => error.message? path
  | failed failure => failure.message?

namespace Definitions

/-- The suffixes of YAML files. -/
def yamlSuffixes : List Text := [".yaml", ".yml"]

/-- Whether the file under a path holds YAML. -/
def isYaml (path : Text) : Bool := yamlSuffixes.contains (File.suffix path).toAsciiLower

variable [YamlLibrary]

variable [Stack]

/-- The document in the file of a path. -/
def decode (path text : Text) : Except LoadError Value :=
  let text := Text.unifyLineEnds text
  if isYaml path then
    match YamlLibrary.read path text with
    | .ok document => .ok document
    | .error (.failed failure) => .error (.failed failure)
    | .error (.malformed wording) => .error (.notYaml path wording)
  else
    match Json.read true text with
    | .ok document => .ok document
    | .error (.failed failure) => .error (.failed failure)
    | .error fault => .error (.notJson path ((Json.faultMessage? text fault).getD []))

/-- The endpoints that the file under a path defines. -/
def load (files : File.Files) (path : Text) : Except LoadError (List Endpoint) := do
  let path := File.normalPath path
  match files.read path with
  | .error .missing => throw (.missing path)
  | .error .directory => throw (.directory path)
  | .ok text =>
    match ofDocument (← decode path text) with
    | .ok endpoints => return endpoints
    | .error (.failed failure) => throw (.failed failure)
    | .error error => throw (.document path error)

/-- The endpoints that several files define, in order. -/
def loadAll (files : File.Files) (paths : List Text) : Except LoadError (List Endpoint) := do
  return (← paths.mapM (load files)).flatten

end Definitions

end MockApi
