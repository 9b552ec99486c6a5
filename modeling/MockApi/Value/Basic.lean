import MockApi.Number.Basic
import MockApi.Table

/-!
# Values

The values that requests carry and conditions compute with: JSON values and `undefined`. Lists and
objects are containers with an identity of their own, since one comparison asks whether two values
are the same container; the identity is a number that `Value.withIdentities` hands out. Values fresh
from a document have no say in identity and carry zero everywhere.

An object is a table of values.
-/

namespace MockApi

/-- A JSON value or `undefined`. -/
inductive Value
  /-- The null value. -/
  | null
  /-- The value of what does not exist. -/
  | undefined
  /-- A truth value. -/
  | bool (b : Bool)
  /-- A number. -/
  | number (x : Number)
  /-- A text. -/
  | text (t : Text)
  /-- A list with its identity. -/
  | list (identity : Nat) (items : List Value)
  /-- An object with its identity. -/
  | object (identity : Nat) (entries : List (Text × Value))

/-- The entries of an object. -/
abbrev Entries := Table Value

namespace Value

/-! ## Classes of values -/

/-- `null` and `undefined`. -/
def isNullish : Value → Bool
  | null | undefined => true
  | _ => false

/-- Lists and objects. -/
def isContainer : Value → Bool
  | list .. | object .. => true
  | _ => false

/-- Numbers. -/
def isNumber : Value → Bool
  | number _ => true
  | _ => false

/-- The kinds of values that comparison tells apart. -/
inductive Kind
  | null
  | undefined
  | bool
  | number
  | text
  | container
deriving DecidableEq, Repr

/-- The kind of a value. -/
def kind : Value → Kind
  | null => .null
  | undefined => .undefined
  | bool _ => .bool
  | number _ => .number
  | text _ => .text
  | list .. | object .. => .container

/-- The integer as a value. -/
def int (n : Int) : Value := .number (.int n)

/-- The double as a value. -/
def double (x : Double) : Value := .number (.double x)

/-- The object with the given entries and no identity of its own. -/
def ofEntries (entries : Entries) : Value := .object 0 entries

/-- The list of the given items, with no identity of its own. -/
def ofItems (items : List Value) : Value := .list 0 items

/-! ## Identities -/

mutual

/-- Gives every container of a value an identity of its own, from `next` on, and tells the first
number left. -/
def withIdentities (next : Nat) : Value → Value × Nat
  | list _ items =>
    let (items, next') := itemsWithIdentities (next + 1) items
    (list next items, next')
  | object _ entries =>
    let (entries, next') := entriesWithIdentities (next + 1) entries
    (object next entries, next')
  | value => (value, next)

/-- Gives every container of some items an identity of its own. -/
def itemsWithIdentities (next : Nat) : List Value → List Value × Nat
  | [] => ([], next)
  | item :: items =>
    let (item, next) := withIdentities next item
    let (items, next) := itemsWithIdentities next items
    (item :: items, next)

/-- Gives every container of some entries an identity of its own. -/
def entriesWithIdentities (next : Nat) : List (Text × Value) → List (Text × Value) × Nat
  | [] => ([], next)
  | (key, value) :: entries =>
    let (value, next) := withIdentities next value
    let (entries, next) := entriesWithIdentities next entries
    ((key, value) :: entries, next)

end

end Value

end MockApi
