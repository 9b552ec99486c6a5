import MockApi.Failure
import MockApi.Value.Basic

/-!
# YAML libraries

Files may be written in YAML, which a library reads. What is YAML, what it says and how a complaint
is worded are the affair of the library, so everything that reads such files is parametrised by it.
-/

namespace MockApi

/-- Why a library gives no value for a text. -/
inductive YamlFault
  /-- The text is no YAML; the complaint has a wording. -/
  | malformed (wording : Text)
  /-- A part of the document cannot be turned into a value. -/
  | failed (failure : Failure)
deriving DecidableEq, Repr

/-- A library that reads YAML. -/
class YamlLibrary where
  /-- The value of the document that is the text of the file under a path. -/
  read (path text : Text) : Except YamlFault Value

/-- A library that reads nothing. -/
abbrev YamlLibrary.bare : YamlLibrary := ⟨fun _ _ ↦ .error (.malformed [])⟩

end MockApi
