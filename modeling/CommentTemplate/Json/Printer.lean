import CommentTemplate.Json.Value
import CommentTemplate.Decimal.Shortest

/-!
# Writing JSON

One printer writes every layout; a `Layout` says what stands between the tokens.

* Strings escape the quote, the backslash and the characters below U+0020, which have short forms
  or are written with four hexadecimal digits.  Everything else stands for itself.
* Integers are written in decimal and floating-point numbers as
  `CommentTemplate.Decimal.Binary64.text` has them.
* An empty array is `[]` and an empty object `{}` in every layout.
-/

namespace CommentTemplate.Json

/-- The blanks between the tokens of a document. -/
structure Layout where
  /-- What stands in front of an item or a closing bracket at a level of nesting. -/
  newline : Nat → Text
  /-- What stands after the colon of a member. -/
  gap : Text

/-- Everything on one line and no blanks. -/
def Layout.compact : Layout := ⟨fun _ => [], []⟩

/-- One item on a line, indented by two spaces a level, and a space after each colon. -/
def Layout.pretty : Layout := ⟨fun level => '\n' :: List.replicate (2 * level) ' ', [' ']⟩

/-- The digit of a value below sixteen, letters in lower case. -/
def hexDigit (n : Nat) : Char := Nat.digitChar n

/-- The spelling of a character inside a string. -/
def escape (c : Char) : Text :=
  if c = '"' then ['\\', '"']
  else if c = '\\' then ['\\', '\\']
  else if c = '\n' then ['\\', 'n']
  else if c = '\r' then ['\\', 'r']
  else if c = '\t' then ['\\', 't']
  else if c = '\x08' then ['\\', 'b']
  else if c = '\x0c' then ['\\', 'f']
  else if c.toNat < 0x20 then
    ['\\', 'u', '0', '0', hexDigit (c.toNat / 16), hexDigit (c.toNat % 16)]
  else [c]

/-- A string in quotes. -/
def quoted (s : Text) : Text := '"' :: (s.flatMap escape ++ ['"'])

/-- An integer in decimal. -/
def integerText (n : Int) : Text :=
  if n < 0 then '-' :: Text.ofNat n.natAbs else Text.ofNat n.natAbs

/-- A number. -/
def Number.text : Number → Text
  | .integer n => integerText n
  | .float bits => Decimal.Binary64.text bits

namespace Value

mutual

/-- The document of a value that stands at a level of nesting. -/
def print (l : Layout) (level : Nat) : Value → Text
  | .null => "null".toList
  | .bool true => "true".toList
  | .bool false => "false".toList
  | .number n => n.text
  | .string s => quoted s
  | .array [] => ['[', ']']
  | .array (v :: vs) =>
    '[' :: (l.newline (level + 1) ++ (print l (level + 1) v ++ (printItems l (level + 1) vs ++
      (l.newline level ++ [']']))))
  | .object [] => ['{', '}']
  | .object ((k, v) :: ms) =>
    '{' :: (l.newline (level + 1) ++ (quoted k ++ ':' :: (l.gap ++ (print l (level + 1) v ++
      (printMembers l (level + 1) ms ++ (l.newline level ++ ['}']))))))

/-- Further items of an array, each after a comma. -/
def printItems (l : Layout) (level : Nat) : List Value → Text
  | [] => []
  | v :: vs => ',' :: (l.newline level ++ (print l level v ++ printItems l level vs))

/-- Further members of an object, each after a comma. -/
def printMembers (l : Layout) (level : Nat) : List (Text × Value) → Text
  | [] => []
  | (k, v) :: ms =>
    ',' :: (l.newline level ++ (quoted k ++ ':' :: (l.gap ++ (print l level v ++
      printMembers l level ms))))

end

/-- The document without any blanks. -/
def compact (v : Value) : Text := print .compact 0 v

/-- The indented document. -/
def pretty (v : Value) : Text := print .pretty 0 v

/-- The canonical document of a value: no blanks, and the members of every object in increasing
order of name. -/
def canonicalText (v : Value) : Text := v.canonical.compact

end Value

end CommentTemplate.Json
