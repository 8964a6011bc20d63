import CommentTemplate.Text.Extender
import CommentTemplate.Text.Graphic
import CommentTemplate.Text.Ignorable

/-!
# Texts quoted for a reader

A message quotes a text so that every character of it can be made out.  A character that would not
show on its own is written as its code point in braces.

This spelling is for messages only.  Documents have a spelling of their own, which is also read
back (`CommentTemplate.Json.quoted`).
-/

namespace CommentTemplate

/-- Whether a character shows on its own: it is graphic, leaves a trace, and does not merge with
the one in front of it. -/
def showsAlone (c : Char) : Bool := isGraphic c && !isIgnorable c && !isExtender c

/-- A character by its code point, in hexadecimal digits. -/
def codePointSpelling (c : Char) : Text :=
  '\\' :: 'u' :: '{' :: (Nat.toDigits 16 c.toNat ++ ['}'])

/-- The spelling of a character between double quotes. -/
def visibleSpelling (c : Char) : Text :=
  if c = '"' then ['\\', '"']
  else if c = '\\' then ['\\', '\\']
  else if c = '\n' then ['\\', 'n']
  else if c = '\r' then ['\\', 'r']
  else if c = '\t' then ['\\', 't']
  else if c = '\x00' then ['\\', '0']
  else if showsAlone c then [c]
  else codePointSpelling c

/-- A text between double quotes. -/
def doubleQuoted (t : Text) : Text := '"' :: (t.flatMap visibleSpelling ++ ['"'])

end CommentTemplate
