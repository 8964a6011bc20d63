import CommentTemplate.Text.Basic

/-!
# Runs of digits

A run of characters of some class ends where a character outside of the class stands.  So a number
written in decimal can be told apart from what follows it, and different numbers have different
digits.

## Main statements

* `Text.takeWhile_append_of_head` — where a run of characters ends
* `Text.takeWhile_ofNat`, `Text.eq_of_ofNat_append` — where the digits of a number end
-/

namespace CommentTemplate

namespace Text

/-- A run of characters that stops in front of `u` stops there whatever comes later. -/
theorem takeWhile_append_of_head {p : Char → Bool} {a u : Text} (ha : ∀ c ∈ a, p c = true)
    (hu : ∀ c ∈ u.head?, p c = false) :
    (a ++ u).takeWhile p = a ∧ (a ++ u).dropWhile p = u := by
  rw [List.takeWhile_append_of_pos ha, List.dropWhile_append_of_pos ha]
  cases u with
  | nil => simp
  | cons c u => simp [hu c rfl]

theorem isDigit_of_mem_ofNat {n : Nat} {c : Char} (h : c ∈ ofNat n) : c.isDigit = true :=
  Nat.isDigit_of_mem_toDigits (by decide) (by decide) h

theorem ofNat_ne_nil (n : Nat) : ofNat n ≠ [] := Nat.toDigits_ne_nil

theorem exists_head_ofNat (n : Nat) (u : Text) :
    ∃ c, (ofNat n ++ u).head? = some c ∧ c.isDigit = true := by
  cases h : ofNat n with
  | nil => exact absurd h (ofNat_ne_nil n)
  | cons d ds => exact ⟨d, rfl, isDigit_of_mem_ofNat (h ▸ List.mem_cons_self)⟩

theorem ofNat_injective {m n : Nat} (h : ofNat m = ofNat n) : m = n := by
  have hm := Nat.ofDigitChars_ten_toDigits (n := m)
  rw [show Nat.toDigits 10 m = Nat.toDigits 10 n from h, Nat.ofDigitChars_ten_toDigits] at hm
  exact hm.symm

/-- The digits of a number end where no digit follows. -/
theorem takeWhile_ofNat (n : Nat) {u : Text} (hu : ∀ c ∈ u.head?, c.isDigit = false) :
    (ofNat n ++ u).takeWhile Char.isDigit = ofNat n ∧
      (ofNat n ++ u).dropWhile Char.isDigit = u :=
  takeWhile_append_of_head (fun _ => isDigit_of_mem_ofNat) hu

/-- Two numbers in front of something that is no digit are the same number. -/
theorem eq_of_ofNat_append {m n : Nat} {u v : Text} (hu : ∀ c ∈ u.head?, c.isDigit = false)
    (hv : ∀ c ∈ v.head?, c.isDigit = false) (h : ofNat m ++ u = ofNat n ++ v) :
    m = n ∧ u = v := by
  obtain ⟨htake, hdrop⟩ := takeWhile_ofNat m hu
  rw [h, (takeWhile_ofNat n hv).1] at htake
  rw [h, (takeWhile_ofNat n hv).2] at hdrop
  exact ⟨(ofNat_injective htake).symm, hdrop.symm⟩

end Text

end CommentTemplate
