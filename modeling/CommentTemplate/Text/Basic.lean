/-!
# Texts

A text is a sequence of Unicode scalar values.  Templates, names, file contents and JSON
documents are all texts, so every part of the library speaks about one type.

## Design decisions

**Lists, not packed strings.**  Every reader here consumes a text from the front, and every law
is about how a text splits into pieces.  Both are direct on lists; the packed form is used only
at the border of the program.

**Order.**  Texts are compared scalar by scalar.  For UTF-8 this is the order of the encoded
bytes, so sorted names come out in byte order.

**Sizes.**  Positions that a reader of the output sees are byte offsets into the UTF-8 form;
`Text.utf8Size` measures them.
-/

namespace CommentTemplate

/-- A text: its Unicode scalar values in order. -/
abbrev Text := List Char

namespace Text

/-- The number of bytes of the UTF-8 form. -/
def utf8Size : Text → Nat
  | [] => 0
  | c :: t => c.utf8Size + utf8Size t

@[simp] theorem utf8Size_nil : utf8Size [] = 0 := rfl

@[simp] theorem utf8Size_cons (c : Char) (t : Text) :
    utf8Size (c :: t) = c.utf8Size + utf8Size t := rfl

@[simp] theorem utf8Size_append (a b : Text) : utf8Size (a ++ b) = utf8Size a + utf8Size b := by
  induction a with
  | nil => simp
  | cons c a ih => simp [ih, Nat.add_assoc]

theorem utf8Size_pos {t : Text} (h : t ≠ []) : 0 < utf8Size t := by
  cases t with
  | nil => exact absurd rfl h
  | cons c t => exact Nat.lt_of_lt_of_le (Char.utf8Size_pos c) (Nat.le_add_right _ _)

/-- The text without its first `n` bytes; a character cut in two is dropped whole. -/
def dropBytes : Nat → Text → Text
  | 0, t => t
  | _, [] => []
  | n + 1, c :: t => dropBytes (n + 1 - c.utf8Size) t
termination_by _ t => t.length

/-- Dropping the bytes of a leading piece leaves what follows it. -/
theorem dropBytes_append (a b : Text) : dropBytes (utf8Size a) (a ++ b) = b := by
  induction a with
  | nil => simp [dropBytes]
  | cons c a ih =>
    have hc : 0 < c.utf8Size := Char.utf8Size_pos c
    obtain ⟨n, hn⟩ : ∃ n, utf8Size (c :: a) = n + 1 := ⟨utf8Size (c :: a) - 1, by simp; omega⟩
    rw [hn, List.cons_append, dropBytes, ← hn]
    simpa using ih

/-- The decimal digits of a number. -/
def ofNat (n : Nat) : Text := Nat.toDigits 10 n

/-- Two texts in the order of their encoded bytes, one of them first or both equal. -/
theorem lt_or_eq_or_lt (a b : Text) : a < b ∨ a = b ∨ b < a := by grind

end Text

end CommentTemplate
