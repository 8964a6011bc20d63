import CommentTemplate.Text.Basic

/-!
# The text between two bytes

A span of a text is given by two byte offsets.  The text between them is a part of the whole text
with a part in front of it and a part behind it, so both offsets are at the beginning of a character
or at the end of the text.

## Main definitions

* `Text.Between` — a text stands between two bytes of another one

## Main statements

* `Text.eq_of_append_eq_of_utf8Size` — two ways to cut a text at one byte are the same
* `Text.Between.of_lt` — no part of a text begins inside a character
-/

namespace CommentTemplate

namespace Text

/-- A text stands in `s` from one byte up to another one. -/
def Between (s : Text) (first last : Nat) (t : Text) : Prop :=
  ∃ front back, s = front ++ (t ++ back) ∧ utf8Size front = first ∧
    utf8Size front + utf8Size t = last

variable {s t : Text} {first last : Nat}

theorem Between.le (h : s.Between first last t) : first ≤ last ∧ last ≤ utf8Size s := by
  obtain ⟨front, back, rfl, rfl, rfl⟩ := h
  simp only [utf8Size_append]
  omega

theorem Between.lt (h : s.Between first last t) (ht : t ≠ []) : first < last := by
  obtain ⟨front, back, -, rfl, rfl⟩ := h
  have := utf8Size_pos ht
  omega

/-- Texts with one beginning have another one in common if they end at the same byte. -/
theorem eq_of_append_eq_of_utf8Size {a b c d : Text} (h : a ++ b = c ++ d)
    (hsize : utf8Size a = utf8Size c) : a = c ∧ b = d := by
  induction a generalizing c with
  | nil =>
      cases c with
      | nil => exact ⟨rfl, h⟩
      | cons x c =>
          have := utf8Size_pos (List.cons_ne_nil x c)
          rw [← hsize] at this
          exact absurd this (by decide)
  | cons x a ih =>
      cases c with
      | nil =>
          have := utf8Size_pos (List.cons_ne_nil x a)
          rw [hsize] at this
          exact absurd this (by decide)
      | cons y c =>
          obtain ⟨rfl, htails⟩ := List.cons.inj h
          obtain ⟨rfl, rfl⟩ := ih htails (by simpa using hsize)
          exact ⟨rfl, rfl⟩

/-- No part of a text begins inside one of its characters. -/
theorem Between.of_lt {front back : Text} {c : Char} (h : (front ++ c :: back).Between first last t)
    (hfirst : utf8Size front ≤ first) (hlt : first < utf8Size (front ++ [c])) :
    first = utf8Size front := by
  obtain ⟨front', rest, heq, rfl, -⟩ := h
  rcases List.append_eq_append_iff.1 heq with ⟨u, rfl, hu⟩ | ⟨u, rfl, -⟩
  · cases u with
    | nil => simp
    | cons d u =>
        obtain ⟨rfl, -⟩ := List.cons.inj hu
        simp only [utf8Size_append, utf8Size_cons, utf8Size_nil] at hlt
        omega
  · simp only [utf8Size_append] at hfirst ⊢
    omega

end Text

end CommentTemplate
