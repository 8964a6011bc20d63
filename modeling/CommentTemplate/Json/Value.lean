import CommentTemplate.Dict

/-!
# JSON values

## Design decisions

**Members keep the order they are given in.**  An object is a list of members, so a document can
be written with its fields in a chosen order.  `Value.canonical` sorts the members at every level,
and reading a document sorts them at once.

**Numbers.**  A number is an integer or a binary64 floating-point number.  The latter is kept as
its bit pattern, which makes equality of values decidable and tells `0.0` from `-0.0`.
-/

namespace CommentTemplate.Json

/-- A number of a JSON document. -/
inductive Number where
  /-- An integer. -/
  | integer (n : Int)
  /-- A floating-point number, by its binary64 pattern. -/
  | float (bits : UInt64)
deriving DecidableEq, Repr

/-- A JSON value. -/
inductive Value where
  | null
  | bool (b : Bool)
  | number (n : Number)
  | string (s : Text)
  | array (items : List Value)
  | object (members : List (Text × Value))
deriving Repr

instance : Inhabited Value := ⟨.null⟩

/-- The bindings of names to values that an object makes. -/
abbrev Scope := Dict Value

namespace Value

/-- The integer `n`. -/
def int (n : Int) : Value := .number (.integer n)

/-- An array of strings. -/
def strings (ts : List Text) : Value := .array (ts.map .string)

/-- An object with the bindings of a dictionary as its members. -/
def ofDict (d : Dict Value) : Value := .object d.entries

mutual

/-- The value with the members of every object in increasing order of name. -/
def canonical : Value → Value
  | .array items => .array (canonicalItems items)
  | .object members => .object (Dict.ofList (canonicalMembers members)).entries
  | .null => .null
  | .bool b => .bool b
  | .number n => .number n
  | .string s => .string s

/-- The canonical forms of the items of an array. -/
def canonicalItems : List Value → List Value
  | [] => []
  | v :: vs => canonical v :: canonicalItems vs

/-- The members of an object with their values in canonical form. -/
def canonicalMembers : List (Text × Value) → List (Text × Value)
  | [] => []
  | (k, v) :: ms => (k, canonical v) :: canonicalMembers ms

end

end Value

end CommentTemplate.Json
