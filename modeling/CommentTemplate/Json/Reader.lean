import CommentTemplate.Json.Scalar

/-!
# Reading arrays, objects and records

## Design decisions

**Nesting is bounded.**  A document may nest 127 levels deep.  A reader of values takes the number
of levels still allowed, and by that number it is structurally recursive.  Fields that a record
does not know are skipped without being understood, and for them the bound does not hold.

**Lengths bound the loops.**  A loop over items or members is given the length of its text as
fuel.  Each turn reads at least one character, so the fuel never runs out first.

**Records.**  A record is read from an object, in which fields may stand in any order and unknown
ones are skipped, or from an array with the fields in their declared order.  `record` reads both
forms from a list of `Field`s.  A field is read into a partial record, and whether it was given
before is asked of the partial record.
-/

namespace CommentTemplate.Json

variable {α σ : Type}

/-! ## Arrays -/

/-- Whether an array goes on, in front of its first item or after some item: the text at the next
item, or at the closing bracket. -/
def hasItem (first : Bool) (s : Text) : Except Fault (Bool × Text) :=
  match skipSpace s with
  | [] => .error (.before .endInArray [])
  | c :: t =>
    if c = ']' then .ok (false, c :: t)
    else if first then .ok (true, c :: t)
    else if c = ',' then
      match skipSpace t with
      | [] => .error (.before .endInValue [])
      | d :: u => if d = ']' then .error (.after .trailingComma (d :: u)) else .ok (true, d :: u)
    else .error (.after .noCommaInArray (c :: t))

/-- The items of an array and its closing bracket. -/
def items (item : Reader α) : Nat → Bool → Reader (List α)
  | 0, _, s => .error (.before .endInArray s)
  | fuel + 1, first, s => do
    let (more, s) ← hasItem first s
    if more then
      let (x, s) ← item s
      let (xs, s) ← items item fuel false s
      return (x :: xs, s)
    else return ([], s.drop 1)

/-! ## Objects -/

/-- Whether an object goes on, in front of its first member or after some member: the text after
the quote that opens the next member's name, or at the closing brace. -/
def hasMember (first : Bool) (s : Text) : Except Fault (Bool × Text) :=
  let name (s : Text) : Except Fault (Bool × Text) :=
    match s with
    | '"' :: t => .ok (true, t)
    | s => .error (.after .badName s)
  match skipSpace s with
  | [] => .error (.before .endInObject [])
  | c :: t =>
    if c = '}' then .ok (false, c :: t)
    else if first then name (c :: t)
    else if c = ',' then
      match skipSpace t with
      | [] => .error (.before .endInValue [])
      | d :: u => if d = '}' then .error (.after .trailingComma (d :: u)) else name (d :: u)
    else .error (.after .noCommaInObject (c :: t))

/-- The colon between a member's name and its value. -/
def colon (s : Text) : Except Fault Text :=
  match skipSpace s with
  | [] => .error (.before .endInObject [])
  | c :: t => if c = ':' then .ok t else .error (.after .noColon (c :: t))

/-- The members of an object up to its closing brace, folded over a state.  A step is given the
state and the member's name in front of the colon. -/
def foldMembers (step : σ → Text → Reader σ) : Nat → Bool → σ → Reader σ
  | 0, _, _, s => .error (.before .endInObject s)
  | fuel + 1, first, st, s => do
    let (more, s) ← hasMember first s
    if more then
      let (name, s) ← stringBody s
      let (st, s) ← step st name s
      foldMembers step fuel false st s
    else return (st, s)

/-- A dictionary from the members of an object, after its opening brace; the last member of a
name counts. -/
def dictBody (item : Reader α) : Reader (Dict α) := fun s => do
  let step (d : Dict α) (name : Text) : Reader (Dict α) := fun s => do
    let s ← colon s
    let (x, s) ← item s
    return (d.insert name x, s)
  let (d, s) ← foldMembers step (s.length + 1) true Dict.empty s
  return (d, s.drop 1)

/-- An array of items, where `levels` further levels of nesting are allowed. -/
def array (item : Nat → Reader α) (levels : Nat) : Reader (List α) := fun s => do
  let (seen, s) ← scalar (skipSpace s)
  match seen, levels with
  | .array, 0 => throw (.after .tooDeep s)
  | .array, levels + 1 => items (item levels) (s.length + 1) true (s.drop 1)
  | seen, _ => throw (.before (.wrongType seen "a sequence".toList) s)

/-- An object read as a dictionary, where `levels` further levels of nesting are allowed. -/
def dict (item : Nat → Reader α) (levels : Nat) : Reader (Dict α) := fun s => do
  let (seen, s) ← scalar (skipSpace s)
  match seen, levels with
  | .object, 0 => throw (.after .tooDeep s)
  | .object, levels + 1 => dictBody (item levels) (s.drop 1)
  | seen, _ => throw (.before (.wrongType seen "a map".toList) s)

/-! ## Values of any type -/

/-- The value of a scalar that is no bracket. -/
def Seen.value : Seen → Value
  | .bool b => .bool b
  | .number n => .number n
  | .string s => .string s
  | .null | .array | .object => .null

/-- A value of any type, where `levels` further levels of nesting are allowed. -/
def value : Nat → Reader Value
  | 0, s => do
    let (seen, s) ← scalar (skipSpace s)
    match seen with
    | .array | .object => throw (.after .tooDeep s)
    | seen => return (seen.value, s)
  | levels + 1, s => do
    let (seen, s) ← scalar (skipSpace s)
    match seen with
    | .array =>
      let (vs, s) ← items (value levels) (s.length + 1) true (s.drop 1)
      return (.array vs, s)
    | .object =>
      let (d, s) ← dictBody (value levels) (s.drop 1)
      return (.ofDict d, s)
    | seen => return (seen.value, s)

/-! ## Skipped values -/

/-- A string skipped after its opening quote.  Escapes have to be spelt right and may denote lone
surrogates. -/
def skipString : Text → Except Fault Text
  | [] => .error ⟨.endInString, 0⟩
  | ['\\'] => .error ⟨.endInString, 0⟩
  | '\\' :: c :: s =>
    if c = 'u' then
      match s with
      | h₁ :: h₂ :: h₃ :: h₄ :: t =>
        if (hexNumber? [h₁, h₂, h₃, h₄]).isSome then skipString t
        else if Text.utf8Size s < 4 then .error ⟨.endInString, 0⟩
        else .error ⟨.badEscape, Text.utf8Size s - 4⟩
      | s =>
        if Text.utf8Size s < 4 then .error ⟨.endInString, 0⟩
        else .error ⟨.badEscape, Text.utf8Size s - 4⟩
    else if (letterEscape? c).isSome then skipString s
    else .error (.after .badEscape (c :: s))
  | c :: s =>
    if c = '"' then .ok s
    else if c.toNat < 0x20 then .error (.before .controlCharacter (c :: s))
    else skipString s

/-- The exponent of a skipped number, if it has one. -/
def skipExponent (s : Text) : Except Fault Text :=
  match s with
  | 'e' :: t | 'E' :: t =>
    let t := match t with
      | '+' :: u | '-' :: u => u
      | t => t
    if t.takeWhile Char.isDigit = [] then .error (.after .badNumber t)
    else .ok (t.dropWhile Char.isDigit)
  | s => .ok s

/-- A number skipped after its sign, of whatever size. -/
def skipNumber (s : Text) : Except Fault Text :=
  let fraction (s : Text) : Except Fault Text :=
    match s with
    | '.' :: t =>
      if t.takeWhile Char.isDigit = [] then .error (.after .badNumber t)
      else skipExponent (t.dropWhile Char.isDigit)
    | s => skipExponent s
  match s with
  | '0' :: t =>
    match t with
    | d :: _ => if d.isDigit then .error (.after .badNumber t) else fraction t
    | [] => fraction t
  | s =>
    if s.takeWhile Char.isDigit = [] then .error (.after .badNumber s)
    else fraction (s.dropWhile Char.isDigit)

/-- The items of a skipped array from the next item on, and the closing bracket. -/
def skipItems (item : Text → Except Fault Text) : Nat → Text → Except Fault Text
  | 0, s => .error (.before .endInArray s)
  | fuel + 1, s => do
    let s ← item s
    match skipSpace s with
    | [] => throw (.before .endInArray [])
    | c :: t =>
      if c = ']' then return t
      else if c = ',' then skipItems item fuel t
      else throw (.after .noCommaInArray (c :: t))

/-- The members of a skipped object from the next member on, and the closing brace. -/
def skipMembers (item : Text → Except Fault Text) : Nat → Text → Except Fault Text
  | 0, s => .error (.before .endInObject s)
  | fuel + 1, s => do
    let s ← match skipSpace s with
      | [] => throw (.before .endInObject [])
      | c :: t => if c = '"' then skipString t else throw (.after .badName (c :: t))
    let s ← colon s
    let s ← item s
    match skipSpace s with
    | [] => throw (.before .endInObject [])
    | c :: t =>
      if c = '}' then return t
      else if c = ',' then skipMembers item fuel t
      else throw (.after .noCommaInObject (c :: t))

/-- A value skipped; `fuel` bounds its nesting. -/
def skipNested : Nat → Text → Except Fault Text
  | 0, s => .error (.before .endInValue s)
  | fuel + 1, s =>
    match skipSpace s with
    | [] => .error (.before .endInValue [])
    | 'n' :: t => word "ull".toList t
    | 't' :: t => word "rue".toList t
    | 'f' :: t => word "alse".toList t
    | '"' :: t => skipString t
    | '-' :: t => skipNumber t
    | '[' :: t =>
      match skipSpace t with
      | [] => .error (.before .endInArray [])
      | c :: u => if c = ']' then .ok u else skipItems (skipNested fuel) (t.length + 1) (c :: u)
    | '{' :: t =>
      match skipSpace t with
      | [] => .error (.before .endInObject [])
      | c :: u => if c = '}' then .ok u else skipMembers (skipNested fuel) (t.length + 1) (c :: u)
    | c :: t =>
      if c.isDigit then skipNumber (c :: t) else .error (.after .noValue (c :: t))

/-- A value of any type and nesting, passed over. -/
def skip (s : Text) : Except Fault Text := skipNested (s.length + 1) s

/-! ## Records -/

/-- A field of a record that is read into a partial record of type `σ`. -/
structure Field (σ : Type) where
  /-- The name of the field. -/
  name : Text
  /-- Whether the partial record has the field. -/
  given : σ → Bool
  /-- The reader of the field's value, given the levels of nesting it may use. -/
  read : Nat → σ → Reader σ
  /-- Whether the field has to be given. -/
  required : Bool

/-- A field whose value is read by `item`, kept in a part of the partial record. -/
def Field.of (name : Text) (required : Bool) (get : σ → Option α) (set : α → σ → σ)
    (item : Nat → Reader α) : Field σ where
  name := name
  given st := (get st).isSome
  read levels st := fun s => do
    let (x, s) ← item levels s
    return (set x st, s)
  required := required

/-- A fault of a record as a whole, met in front of a text: its place is behind the bracket that
ends the record, if that comes next, and otherwise at the next token. -/
def Fault.ofRecord (cause : Cause) (closer : Char) (s : Text) : Fault :=
  match skipSpace s with
  | [] => .before cause []
  | c :: t => .before cause (if c = closer then t else c :: t)

/-- One member of an object that is read as a record. -/
def recordMember (fields : List (Field σ)) (levels : Nat) (st : σ) (name : Text) : Reader σ :=
  fun s =>
    match fields.find? (·.name = name) with
    | some f =>
      if f.given st then .error (.ofRecord (.duplicateField name) '}' s)
      else do
        let s ← colon s
        f.read levels st s
    | none => do
      let s ← colon s
      let s ← skip s
      return (st, s)

/-- The items of an array that is read as a record, up to the closing bracket or the last
field. -/
def recordItems (expected : Text) (levels : Nat) :
    List (Field σ) → (index : Nat) → σ → Reader σ
  | [], _, st, s => .ok (st, s)
  | f :: fs, index, st, s => do
    let (more, s) ← hasItem (index = 0) s
    if more then
      let (st, s) ← f.read levels st s
      recordItems expected levels fs (index + 1) st s
    else if f.required then throw (.ofRecord (.wrongLength index expected) ']' s)
    else recordItems expected levels fs (index + 1) st s

/-- The closing bracket of an array whose items have been read. -/
def endArray (s : Text) : Except Fault Text :=
  match skipSpace s with
  | [] => .error (.before .endInArray [])
  | c :: t =>
    if c = ']' then .ok t
    else if c = ',' then
      match skipSpace t with
      | ']' :: u => .error (.after .trailingComma (']' :: u))
      | t => .error (.after .trailingText t)
    else .error (.after .trailingText (c :: t))

/-- A number of items in words. -/
def elementCount (n : Nat) : Text :=
  Text.ofNat n ++ (if n = 1 then " element".toList else " elements".toList)

/-- A record with some fields, where `levels` further levels of nesting are allowed.  `finish`
makes the record from the partial one that the fields were read into. -/
def record (expected : Text) (fields : List (Field σ)) (start : σ)
    (finish : σ → Except Cause α) (levels : Nat) : Reader α := fun s => do
  let (seen, s) ← scalar (skipSpace s)
  match seen, levels with
  | .array, 0 | .object, 0 => throw (.after .tooDeep s)
  | .object, levels + 1 =>
    let (st, s) ← foldMembers (recordMember fields levels) (s.length + 1) true start (s.drop 1)
    match finish st with
    | .ok a => return (a, s.drop 1)
    | .error c => throw (.ofRecord c '}' s)
  | .array, levels + 1 =>
    let expected := expected ++ " with ".toList ++ elementCount fields.length
    let (st, s) ← recordItems expected levels fields 0 start (s.drop 1)
    match finish st with
    | .ok a =>
      let s ← endArray s
      return (a, s)
    | .error c => throw (.ofRecord c ']' s)
  | seen, _ => throw (.before (.wrongType seen expected) s)

/-- The value of a required field. -/
def require (name : Text) : Option α → Except Cause α
  | some a => .ok a
  | none => .error (.missingField name)

/-! ## Documents -/

/-- The levels of nesting that a document may have. -/
def maxNesting : Nat := 127

/-- A whole document: what `reader` reads, and nothing but blanks after it. -/
def parse (reader : Nat → Reader α) (document : Text) : Except Error α :=
  match reader maxNesting document with
  | .error f => .error (f.locate document)
  | .ok (a, rest) =>
    match skipSpace rest with
    | [] => .ok a
    | rest => .error ((Fault.after .trailingText rest).locate document)

/-- A document as a value. -/
def Value.parse (document : Text) : Except Error Value := Json.parse value document

end CommentTemplate.Json
