import MockApi.Number.Numeral
import MockApi.Url.Authority
import MockApi.Url.Percent
import MockApi.Value.Basic

/-!
# Paths and queries of URLs

A request is addressed by a URL, which may be a full one with scheme and authority or just a path.
The query is read into parameters: values that write numbers become numbers, pairs with an empty
side are skipped, and of several values the last one counts. The path is taken without everything
around it, and without the prefix that all requests share.
-/

namespace MockApi.Url

/-! ## Queries -/

/-- The text after the first question mark, up to the first number sign. -/
def query? (url : Text) : Option Text :=
  (Text.cut? '?'.toNat url).map fun (_, rest) ↦ Text.before '#'.toNat rest

/-- The value of a decoded parameter: a number if the text writes one. -/
def parameterValue (t : Text) : Value :=
  match Number.ofText? t with
  | some x => .number x
  | none => .text t

/-- The parameter that a part of a query gives. What follows a second equals sign is dropped. -/
def parameter? (part : Text) : Option (Text × Value) :=
  match Text.splitOn '='.toNat part with
  | name :: value :: _ =>
    let name := Percent.decode name
    let value := Percent.decode value
    if name.isEmpty || value.isEmpty then none else some (name, parameterValue value)
  | _ => none

/-- The parameters of a query. -/
def parameters (query : Text) : Entries :=
  Table.ofList ((Text.splitOn '&'.toNat query).filterMap parameter?)

/-- The parameters of the query of a URL. -/
def queryParameters (url : Text) : Entries :=
  match query? url with
  | some query => parameters query
  | none => []

/-! ## Paths -/

/-- Why a URL has no path. -/
inductive Fault
  /-- The authority is not acceptable. -/
  | badAuthority (authority : Text)
deriving DecidableEq, Repr

/-- Code points inside the scheme of a URL. -/
def isSchemePart (c : Nat) : Bool :=
  Text.isAsciiLetter c || Text.isAsciiDigit c || c = '+'.toNat || c = '-'.toNat || c = '.'.toNat

/-- The URL without a scheme in front and the colon after it. -/
def dropScheme (url : Text) : Text :=
  match Text.cut? ':'.toNat url with
  | some (scheme, rest) =>
    if scheme.head?.any Text.isAsciiLetter && scheme.all isSchemePart then rest else url
  | none => url

/-- The URL without controls and spaces in front and without tabs and line ends anywhere. -/
def clean (url : Text) : Text :=
  (url.dropWhile (· ≤ 0x20)).filter fun c ↦ c ≠ 0x09 && c ≠ 0x0A && c ≠ 0x0D

/-- The part of a URL in front of the query and the fragment. -/
def beforeQuery (url : Text) : Text := Text.before '?'.toNat (Text.before '#'.toNat url)

/-- Whether a code point ends an authority. -/
def endsAuthority (c : Nat) : Bool := c = '/'.toNat || c = '?'.toNat || c = '#'.toNat

/-- The path of a full URL. -/
def fullPath (url : Text) : Except Fault Text :=
  match ("//" : Text).isPrefixOf? (dropScheme (clean url)) with
  | none => .ok (beforeQuery (dropScheme (clean url)))
  | some rest =>
    let authority := rest.takeWhile fun c ↦ !endsAuthority c
    if Authority.isValid authority then
      .ok (beforeQuery (rest.dropWhile fun c ↦ !endsAuthority c))
    else .error (.badAuthority authority)

/-- The path of a URL. Only a URL with `://` in it is taken for a full one. -/
def rawPath (url : Text) : Except Fault Text :=
  if Text.includes "://" url then fullPath url
  else .ok (beforeQuery url)

/-- The path without the prefix, if the path is the prefix or continues below it. -/
def dropPrefix (sharedPrefix : Text) (path : Text) : Text :=
  let stem := Text.dropEndWhile (· = '/'.toNat) sharedPrefix
  if stem.isEmpty then path
  else match stem.isPrefixOf? path with
    | some [] => []
    | some (c :: rest) => if c = '/'.toNat then c :: rest else path
    | none => path

/-- The path that is matched against the patterns of endpoints. -/
def path (sharedPrefix : Text) (url : Text) : Except Fault Text := do
  let path := dropPrefix sharedPrefix (← rawPath url)
  return if path.isEmpty then "/" else path

end MockApi.Url
