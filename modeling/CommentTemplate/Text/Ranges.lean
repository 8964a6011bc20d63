import CommentTemplate.Text.Basic

/-!
# Ranges of characters

A property of characters from the Unicode standard is kept as the ranges of code points that have
it.  The tables of this library state version 17.0 of the standard.

## Main definitions

* `inRanges` — whether a character is in one of some ranges
* `ascending` — ranges in increasing order and apart from each other
* `codePoints` — how many code points some ranges hold
-/

namespace CommentTemplate

/-- Ranges of code points, both ends included. -/
abbrev Ranges := List (Nat × Nat)

/-- Whether a character is in one of some ranges. -/
def inRanges (rs : Ranges) (c : Char) : Bool := rs.any fun r => r.1 ≤ c.toNat && c.toNat ≤ r.2

theorem inRanges_iff {rs : Ranges} {c : Char} :
    inRanges rs c = true ↔ ∃ r ∈ rs, r.1 ≤ c.toNat ∧ c.toNat ≤ r.2 := by
  simp [inRanges]

/-- Whether ranges increase, with at least one code point between any two. -/
def ascending : Ranges → Bool
  | [] => true
  | [r] => r.1 ≤ r.2
  | r :: s :: rs => r.1 ≤ r.2 && r.2 + 1 < s.1 && ascending (s :: rs)

/-- The number of code points in some ranges that are apart from each other. -/
def codePoints (rs : Ranges) : Nat := rs.foldr (fun r n => r.2 + 1 - r.1 + n) 0

end CommentTemplate
