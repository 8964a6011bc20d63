import CommentTemplate.Text.Ranges

/-!
# Blank characters

The Unicode property `White_Space`, which separates the words inside a comment tag.  The property
has twenty-five members.
-/

namespace CommentTemplate

/-- The ranges of code points with the Unicode property `White_Space`. -/
def blankRanges : Ranges :=
  [(0x09, 0x0D), (0x20, 0x20), (0x85, 0x85), (0xA0, 0xA0), (0x1680, 0x1680), (0x2000, 0x200A),
    (0x2028, 0x2029), (0x202F, 0x202F), (0x205F, 0x205F), (0x3000, 0x3000)]

/-- Whether a character is white space in the sense of Unicode. -/
def isBlank (c : Char) : Bool := inRanges blankRanges c

example : ascending blankRanges = true := by decide
example : codePoints blankRanges = 25 := by decide

/-- The text from its first character that is not blank. -/
def Text.trimStart (t : Text) : Text := t.dropWhile isBlank

end CommentTemplate
