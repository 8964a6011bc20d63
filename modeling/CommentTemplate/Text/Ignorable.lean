import CommentTemplate.Text.Ranges

/-!
# Ignorable characters

The Unicode property `Default_Ignorable_Code_Point`: characters that leave no trace where they are
drawn, such as joiners, variation selectors and fillers.  Some of them are letters by category.
-/

namespace CommentTemplate

/-- The ranges of code points with the Unicode property `Default_Ignorable_Code_Point`. -/
def ignorableRanges : Ranges :=
  [(0xAD, 0xAD), (0x34F, 0x34F), (0x61C, 0x61C), (0x115F, 0x1160), (0x17B4, 0x17B5),
    (0x180B, 0x180F), (0x200B, 0x200F), (0x202A, 0x202E), (0x2060, 0x206F), (0x3164, 0x3164),
    (0xFE00, 0xFE0F), (0xFEFF, 0xFEFF), (0xFFA0, 0xFFA0), (0xFFF0, 0xFFF8), (0x1BCA0, 0x1BCA3),
    (0x1D173, 0x1D17A), (0xE0000, 0xE0FFF)]

/-- Whether a character leaves no trace where it is drawn. -/
def isIgnorable (c : Char) : Bool := inRanges ignorableRanges c

example : ascending ignorableRanges = true := by decide
example : codePoints ignorableRanges = 4174 := by decide

end CommentTemplate
