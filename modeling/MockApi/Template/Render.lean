import MockApi.Request.Context
import MockApi.Template.Placeholder
import MockApi.Value.Json

/-!
# Rendering templates

A template is filled in from a request in one of two modes. In a single pass, each placeholder of
the template is replaced by its value or left as it stands, and replaced text is never looked at
again. In sequence, the entries are taken one after another, and each replaces its placeholders in
the text that the earlier ones have left, so that a value may bring placeholders in.

A placeholder for an entry is filled in if the request has the entry, a placeholder for the whole
body if the body counts as true; placeholders for the whole path or query are never filled in.
-/

namespace MockApi

/-- The ways to fill in a template. -/
inductive RenderMode
  | singlePass
  | sequential
deriving DecidableEq, Repr

namespace RenderMode

/-- The name of a mode. -/
def name : RenderMode → Text
  | singlePass => "single_pass"
  | sequential => "sequential"

/-- All modes. -/
def all : List RenderMode := [singlePass, sequential]

/-- The mode of a name. -/
def ofName? (t : Text) : Option RenderMode := all.find? (·.name = t)

/-- The wording of the complaint about an unknown name. -/
def unknownMessage (t : Text) : Text :=
  "Unknown render mode '" ++ t ++ "'. Expected one of: " ++ Text.join ", " (all.map name)

theorem ofName?_name (mode : RenderMode) : ofName? mode.name = some mode := by
  cases mode <;> decide

end RenderMode

namespace Template

/-- The entries of a part of a request: those of an object, or the items of a list under their
indices. -/
def entriesOf : Value → Entries
  | .object _ entries => entries
  | .list _ items => items.zipIdx.map fun (item, i) ↦ (Text.ofNat i, item)
  | _ => []

/-! ## In a single pass -/

variable [Stack]

/-- The text that a piece is replaced by; `hasBody` tells whether the body counts as true. -/
def renderPiece (context : RequestContext) (hasBody : Bool) : Piece → Except Failure Text
  | .verbatim c => .ok [c]
  | .whole .body source => if hasBody then context.body.toJson else .ok source
  | .whole _ source => .ok source
  | .entry part name source =>
    match (entriesOf (context.get part)).get? name with
    | some value => value.toReplacement
    | none => .ok source

/-- The template with each piece replaced. -/
def renderSinglePass (template : Text) (context : RequestContext) : Except Failure Text := do
  let hasBody ← context.body.truthy
  return (← (pieces template).mapM (renderPiece context hasBody)).flatten

/-! ## In sequence -/

/-- The text after a placeholder with exactly this between its braces, white space around it apart,
if one starts the text. -/
def afterExactly? (inside : Text) (t : Text) : Option Text := do
  let rest ← afterOpening? t
  let rest ← inside.isPrefixOf? (rest.dropWhile Text.isBlank)
  afterClosing? (rest.dropWhile Text.isBlank)

/-- The text with the placeholders for `inside` replaced, in at most `steps` steps. -/
def replaceWithin (inside replacement : Text) : Nat → Text → Text
  | 0, t => t
  | _, [] => []
  | steps + 1, c :: rest =>
    match afterExactly? inside (c :: rest) with
    | some left => replacement ++ replaceWithin inside replacement steps left
    | none => c :: replaceWithin inside replacement steps rest

/-- The text with the placeholders for `inside` replaced. -/
def replace (inside replacement t : Text) : Text := replaceWithin inside replacement t.length t

/-- The text with the placeholders for entries of a part replaced, one entry after another. -/
def replaceEntries (part : BoundName) (entries : Entries) (t : Text) : Except Failure Text :=
  entries.foldlM (fun t (key, value) ↦ do
    return replace (part.spelling ++ '.'.toNat :: key) (← value.toReplacement) t) t

/-- The template with the entries of path, query and body and then the body replaced. -/
def renderSequential (template : Text) (context : RequestContext) : Except Failure Text := do
  let t ← replaceEntries .path (entriesOf context.path) template
  let t ← replaceEntries .query (entriesOf context.query) t
  if ← context.body.truthy then
    let t ← replaceEntries .body (entriesOf context.body) t
    return replace BoundName.body.spelling (← context.body.toJson) t
  else return t

/-- The template filled in from a request. -/
def render (mode : RenderMode) (template : Text) (context : RequestContext) :
    Except Failure Text :=
  match mode with
  | .singlePass => renderSinglePass template context
  | .sequential => renderSequential template context

end Template

end MockApi
