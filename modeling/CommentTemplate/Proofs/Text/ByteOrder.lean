import Mathlib.Tactic.SplitIfs
import CommentTemplate.Text.Utf8

/-!
# Byte order

Texts are compared scalar by scalar.  Their UTF-8 forms, compared byte by byte, stand in the same
order, so names that increase as texts increase in byte order.

## Main definitions

* `Text.utf8` — the bytes of a text in a list

## Main statements

* `Text.utf8EncodeChar_append_lt` — the bytes of a smaller character come first
* `Text.utf8_lt_utf8` — the bytes of a smaller text come first
-/

namespace CommentTemplate

namespace Text

/-- The bytes of the UTF-8 form. -/
def utf8 (t : Text) : List UInt8 := (encodeUtf8 t).data.toList

theorem utf8_eq_flatMap (t : Text) : utf8 t = t.flatMap String.utf8EncodeChar := by
  have h : encodeUtf8 t = (t.flatMap String.utf8EncodeChar).toByteArray := rfl
  rw [utf8, h, List.data_toByteArray]

theorem ofNat_cons_lt {a b : Nat} (ha : a < 256) (hb : b < 256) {u v : List UInt8} :
    UInt8.ofNat a :: u < UInt8.ofNat b :: v ↔ a < b ∨ a = b ∧ u < v := by
  rw [List.cons_lt_cons_iff, UInt8.lt_iff_toNat_lt, ← UInt8.toNat_inj,
    UInt8.toNat_ofNat_of_lt' ha, UInt8.toNat_ofNat_of_lt' hb]

/-- The bytes of a smaller character come first, whatever follows them. -/
theorem utf8EncodeChar_append_lt {c d : Char} (h : c < d) (u v : List UInt8) :
    String.utf8EncodeChar c ++ u < String.utf8EncodeChar d ++ v := by
  have hlt : c.val.toNat < d.val.toNat := h
  have hmax : d.val.toNat < 0x110000 := d.valid.elim (fun h => by omega) (fun h => h.2)
  -- A digit in base sixty-four is the quotient of a quotient, which keeps the comparison linear.
  have hdiv (n : Nat) : n / 4096 = n / 64 / 64 ∧ n / 262144 = n / 64 / 64 / 64 := by
    simp only [Nat.div_div_eq_div_mul, Nat.reduceMul, and_self]
  rw [String.utf8EncodeChar.eq_1 c, String.utf8EncodeChar.eq_1 d]
  simp only [hdiv]
  -- One case for every pair of lengths.
  split_ifs
  all_goals
    simp (disch := omega) only [List.cons_append, List.nil_append, ofNat_cons_lt]
    omega

/-- **The bytes of a smaller text come first.** -/
theorem utf8_lt_utf8 {s t : Text} (h : s < t) : utf8 s < utf8 t := by
  rw [utf8_eq_flatMap, utf8_eq_flatMap]
  induction s generalizing t with
  | nil =>
      cases t with
      | nil => exact absurd h (List.lt_irrefl [])
      | cons d t =>
          rw [List.flatMap_cons]
          cases hbytes : String.utf8EncodeChar d with
          | nil => exact absurd hbytes String.utf8EncodeChar_ne_nil
          | cons b bs => exact List.nil_lt_cons b _
  | cons c s ih =>
      cases t with
      | nil => exact absurd h (List.not_lt_nil _)
      | cons d t =>
          rw [List.flatMap_cons, List.flatMap_cons]
          rcases List.cons_lt_cons_iff.1 h with hcd | ⟨rfl, hst⟩
          · exact utf8EncodeChar_append_lt hcd _ _
          · exact List.append_left_lt (ih hst)

end Text

end CommentTemplate
