import CommentTemplate.Json.Printer
import CommentTemplate.Text.Quoted

/-!
# Faults of a JSON document

Reading a document stops at the first fault met from left to right.  A fault has a cause and a
place; the causes fall into three categories: the document ends too early, it is malformed, or it
is well formed but not what was asked for.

## Design decisions

**The place is what is left.**  A reader only knows the text in front of it, so a fault records
how many bytes of the document lie behind its place.  `Fault.locate` turns that into a line and a
column once the whole document is known.
-/

namespace CommentTemplate.Json

/-- The kinds of fault. -/
inductive Category where
  /-- The document ends inside a value. -/
  | eof
  /-- The document is malformed. -/
  | malformed
  /-- The document is well formed and of the wrong shape. -/
  | data
deriving DecidableEq, Repr

/-- What a reader came upon instead of what it expected. -/
inductive Seen where
  | null
  | bool (b : Bool)
  | number (n : Number)
  | string (s : Text)
  | array
  | object
deriving DecidableEq, Repr

/-- Why a document cannot be read. -/
inductive Cause where
  /-- The document ends where a value is due or inside one. -/
  | endInValue
  /-- The document ends inside an array. -/
  | endInArray
  /-- The document ends inside an object. -/
  | endInObject
  /-- The document ends inside a string. -/
  | endInString
  /-- No colon after a member's name. -/
  | noColon
  /-- Neither a comma nor a bracket after an item. -/
  | noCommaInArray
  /-- Neither a comma nor a brace after a member. -/
  | noCommaInObject
  /-- A misspelt `null`, `true` or `false`. -/
  | badWord
  /-- Something that no value begins with. -/
  | noValue
  /-- An escape that does not exist. -/
  | badEscape
  /-- A misspelt number. -/
  | badNumber
  /-- A number too large for binary64. -/
  | hugeNumber
  /-- A control character inside a string. -/
  | controlCharacter
  /-- A member whose name is not a string. -/
  | badName
  /-- An escaped surrogate without its partner. -/
  | loneSurrogate
  /-- A leading surrogate that no escape follows. -/
  | brokenSurrogate
  /-- A comma before a closing bracket. -/
  | trailingComma
  /-- Something after the end of the value. -/
  | trailingText
  /-- Values nested too deep. -/
  | tooDeep
  /-- A value of another type than expected. -/
  | wrongType (found : Seen) (expected : Text)
  /-- A value of the right type outside the expected range. -/
  | wrongValue (found : Seen) (expected : Text)
  /-- Fewer or more items than expected. -/
  | wrongLength (length : Nat) (expected : Text)
  /-- A field given twice. -/
  | duplicateField (name : Text)
  /-- A required field not given. -/
  | missingField (name : Text)
  /-- A name that is none of the known ones. -/
  | unknownVariant (name : Text) (known : List Text)
  /-- A string that does not denote an instant. -/
  | badInstant
deriving DecidableEq, Repr

/-- The category of a cause. -/
def Cause.category : Cause → Category
  | .endInValue | .endInArray | .endInObject | .endInString => .eof
  | .noColon | .noCommaInArray | .noCommaInObject | .badWord | .noValue | .badEscape
  | .badNumber | .hugeNumber | .controlCharacter | .badName | .loneSurrogate
  | .brokenSurrogate | .trailingComma | .trailingText | .tooDeep => .malformed
  | .wrongType .. | .wrongValue .. | .wrongLength .. | .duplicateField _ | .missingField _
  | .unknownVariant .. | .badInstant => .data

/-- A name between backquotes. -/
def backquoted (t : Text) : Text := "`".toList ++ t ++ "`".toList

/-- A description of what was found. -/
def Seen.text : Seen → Text
  | .null => "null".toList
  | .bool b => "boolean ".toList ++ backquoted (if b then "true".toList else "false".toList)
  | .number (.integer n) => "integer ".toList ++ backquoted (integerText n)
  | .number (.float bits) =>
    "floating point ".toList ++ backquoted (Decimal.Binary64.text bits)
  | .string s => "string ".toList ++ doubleQuoted s
  | .array => "sequence".toList
  | .object => "map".toList

/-- The known names of an enumeration. -/
def oneOf : List Text → Text
  | [] => "there are no variants".toList
  | [a] => "expected ".toList ++ backquoted a
  | [a, b] => "expected ".toList ++ backquoted a ++ " or ".toList ++ backquoted b
  | names => "expected one of ".toList ++ (", ".toList).intercalate (names.map backquoted)

/-- The words for a cause. -/
def Cause.message : Cause → Text
  | .endInValue => "EOF while parsing a value".toList
  | .endInArray => "EOF while parsing a list".toList
  | .endInObject => "EOF while parsing an object".toList
  | .endInString => "EOF while parsing a string".toList
  | .noColon => "expected `:`".toList
  | .noCommaInArray => "expected `,` or `]`".toList
  | .noCommaInObject => "expected `,` or `\x7d`".toList
  | .badWord => "expected ident".toList
  | .noValue => "expected value".toList
  | .badEscape => "invalid escape".toList
  | .badNumber => "invalid number".toList
  | .hugeNumber => "number out of range".toList
  | .controlCharacter =>
    "control character (\\u0000-\\u001F) found while parsing a string".toList
  | .badName => "key must be a string".toList
  | .loneSurrogate => "lone leading surrogate in hex escape".toList
  | .brokenSurrogate => "unexpected end of hex escape".toList
  | .trailingComma => "trailing comma".toList
  | .trailingText => "trailing characters".toList
  | .tooDeep => "recursion limit exceeded".toList
  | .wrongType found expected =>
    "invalid type: ".toList ++ found.text ++ ", expected ".toList ++ expected
  | .wrongValue found expected =>
    "invalid value: ".toList ++ found.text ++ ", expected ".toList ++ expected
  | .wrongLength n expected =>
    "invalid length ".toList ++ Text.ofNat n ++ ", expected ".toList ++ expected
  | .duplicateField name => "duplicate field ".toList ++ backquoted name
  | .missingField name => "missing field ".toList ++ backquoted name
  | .unknownVariant name known =>
    "unknown variant ".toList ++ backquoted name ++ ", ".toList ++ oneOf known
  | .badInstant => "input contains invalid characters".toList

/-- A fault met by a reader. -/
structure Fault where
  /-- Why reading stopped. -/
  cause : Cause
  /-- The number of bytes of the document behind the place of the fault. -/
  behind : Nat
deriving DecidableEq, Repr

namespace Fault

/-- A fault right in front of the rest of the document. -/
def before (cause : Cause) (rest : Text) : Fault := ⟨cause, Text.utf8Size rest⟩

/-- A fault after the next byte of the rest of the document, if there is one. -/
def after (cause : Cause) (rest : Text) : Fault := ⟨cause, Text.utf8Size rest - 1⟩

end Fault

/-- A fault with its place in a document: a line, and the number of bytes of that line up to the
place. -/
structure Error where
  /-- Why the document cannot be read. -/
  cause : Cause
  /-- The line, counted from one. -/
  line : Nat
  /-- The bytes of the line in front of the place. -/
  column : Nat
deriving DecidableEq, Repr

/-- The category of an error. -/
def Error.category (e : Error) : Category := e.cause.category

/-- The text of an error. -/
def Error.message (e : Error) : Text :=
  e.cause.message ++ " at line ".toList ++ Text.ofNat e.line ++ " column ".toList ++
    Text.ofNat e.column

/-- The line and column reached after `offset` more bytes of a document, from a given place. -/
def advance : Text → (offset line column : Nat) → Nat × Nat
  | [], _, line, column => (line, column)
  | c :: t, offset, line, column =>
    if offset < c.utf8Size then (line, column + offset)
    else if c = '\n' then advance t (offset - 1) (line + 1) 0
    else advance t (offset - c.utf8Size) line (column + c.utf8Size)

/-- The place of a fault in the document that was read. -/
def Fault.locate (document : Text) (f : Fault) : Error :=
  let place := advance document (Text.utf8Size document - f.behind) 1 0
  ⟨f.cause, place.1, place.2⟩

end CommentTemplate.Json
