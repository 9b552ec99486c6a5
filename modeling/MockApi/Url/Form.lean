import MockApi.Url.Percent

/-!
# Form-encoded parameters

In a form-encoded query, a plus sign stands for a space, and a name without an equals sign has an
empty value. The octets of the query are taken one by one, so that text beyond ASCII has to come in
escapes. Of several parameters of one name the last one counts.
-/

namespace MockApi.Form

/-- A name or a value with its escapes decoded. -/
def decodePart (t : Text) : Text :=
  Percent.decode (t.map fun c ↦ if c = '+'.toNat then 0x20 else c)

/-- The parameter that a part of a query gives. -/
def parameter (part : Text) : Text × Text :=
  match Text.cut? '='.toNat part with
  | some (name, value) => (decodePart name, decodePart value)
  | none => (decodePart part, [])

/-- The parameters of a query given in octets, in order. -/
def parameters (query : Text.Utf8.Octets) : List (Text × Text) :=
  ((Text.splitOn '&'.toNat query).filter (· ≠ [])).map parameter

/-- The last value of a parameter. -/
def last? (query : Text.Utf8.Octets) (name : Text) : Option Text :=
  (parameters query).reverse.lookup name

end MockApi.Form
