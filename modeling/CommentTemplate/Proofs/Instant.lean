import Mathlib.Algebra.Group.Nat.Defs
import CommentTemplate.Instant
import CommentTemplate.Proofs.Text.Digits

/-!
# Instants are read back

The written form of an instant is read as that instant.  Every part of it has a fixed number of
digits or ends in front of a character that is no digit, so the parts are read one after the other.

## Main definitions

* `Instant.IsReal` — the date exists, and the time is one of that day
* `Moment` — an instant that is real, such as a clock shows

## Main statements

* `number_padded` — a number is read from digits of a fixed width
* `parse?_text` — an instant is read back from its written form
-/

namespace CommentTemplate

/-- No digit is blank. -/
theorem isBlank_of_isDigit {c : Char} (h : c.isDigit = true) : isBlank c = false := by
  have hc : 48 ≤ c.toNat ∧ c.toNat ≤ 57 := by
    simpa [Char.isDigit, UInt32.le_iff_toNat_le] using h
  rw [Bool.eq_false_iff, isBlank, ne_eq, inRanges_iff]
  rintro ⟨r, hr, hlo, hhi⟩
  have hout : ∀ r ∈ blankRanges, r.2 < 48 ∨ 57 < r.1 := by decide
  have := hout r hr
  omega

namespace Instant

/-! ## Digits of a fixed width -/

theorem digitsValue_eq (ds : Text) : digitsValue ds = Nat.ofDigitChars 10 ds 0 :=
  Nat.ofDigitChars_eq_foldl.symm

theorem digitsValue_padded (width n : Nat) : digitsValue (padded width n) = n := by
  rw [digitsValue_eq, padded, Nat.ofDigitChars_append, Nat.ofDigitChars_replicate_zero,
    Nat.mul_zero]
  exact Nat.ofDigitChars_ten_toDigits

theorem isDigit_of_mem_padded {width n : Nat} {c : Char} (h : c ∈ padded width n) :
    c.isDigit = true := by
  rcases List.mem_append.1 h with h | h
  · rw [List.eq_of_mem_replicate h]
    rfl
  · exact Text.isDigit_of_mem_ofNat h

/-- A number that fits is written with exactly as many digits as asked for. -/
theorem length_padded {width n : Nat} (hwidth : 0 < width) (h : n < 10 ^ width) :
    (padded width n).length = width := by
  have : (Text.ofNat n).length ≤ width :=
    (Nat.length_toDigits_le_iff (by decide) hwidth).2 h
  rw [padded, List.length_append, List.length_replicate]
  omega

theorem padded_ne_nil (width n : Nat) : padded width n ≠ [] := by
  intro h
  exact Text.ofNat_ne_nil n (List.append_eq_nil_iff.1 h).2

/-- Digits in front of the end of the width, or of something that is no digit, are read as the
number they write. -/
theorem number_digits {width : Nat} {ds rest : Text} (hne : ds ≠ [])
    (hds : ∀ c ∈ ds, c.isDigit = true) (hlen : ds.length ≤ width)
    (hrest : ∀ c ∈ (rest.take (width - ds.length)).head?, c.isDigit = false) :
    number width (ds ++ rest) = some (digitsValue ds, rest) := by
  have htake : ((ds ++ rest).take width).takeWhile Char.isDigit = ds := by
    rw [List.take_append, List.take_of_length_le hlen]
    exact (Text.takeWhile_append_of_head hds hrest).1
  simp only [number, htake, if_neg hne, List.drop_left]

/-- A number is read from digits of a fixed width, whatever follows them. -/
theorem number_padded {width n : Nat} (hwidth : 0 < width) (h : n < 10 ^ width) (rest : Text) :
    number width (padded width n ++ rest) = some (n, rest) := by
  have hlen := length_padded hwidth h
  rw [number_digits (padded_ne_nil width n) (fun _ => isDigit_of_mem_padded) (Nat.le_of_eq hlen)
    (by simp [hlen]), digitsValue_padded]

/-- A number is read from all its digits, if no digit follows. -/
theorem longNumber_padded (width n : Nat) {rest : Text}
    (hrest : ∀ c ∈ rest.head?, c.isDigit = false) :
    longNumber (padded width n ++ rest) = some (n, rest) := by
  rw [longNumber, number_digits (padded_ne_nil width n) (fun _ => isDigit_of_mem_padded)
    (by simp), digitsValue_padded]
  intro c hc
  rw [List.length_append, Nat.add_sub_cancel_left, List.take_length] at hc
  exact hrest c hc

theorem trimStart_padded (width n : Nat) (rest : Text) :
    Text.trimStart (padded width n ++ rest) = padded width n ++ rest := by
  cases h : padded width n with
  | nil => exact absurd h (padded_ne_nil width n)
  | cons d ds =>
      have hd : isBlank d = false :=
        isBlank_of_isDigit (isDigit_of_mem_padded (h ▸ List.mem_cons_self))
      rw [Text.trimStart, List.cons_append, List.dropWhile_cons_of_neg (by simp [hd])]

/-! ## The parts of the written form -/

theorem twoDigits_padded {n : Nat} (h : n < 100) (rest : Text) :
    twoDigits (padded 2 n ++ rest) = some (n, rest) := by
  rw [twoDigits, trimStart_padded]
  exact number_padded (by decide) h rest

theorem mark_cons {c : Char} (h : isBlank c = false) (rest : Text) :
    mark c (c :: rest) = some rest := by
  rw [mark, Text.trimStart, List.dropWhile_cons_of_neg (by simp [h])]
  exact if_pos rfl

/-- A year is read back if something else than a digit follows. -/
theorem year_yearText (y : Int) (rest : Text) :
    year (yearText y ++ '-' :: rest) = some (y, '-' :: rest) := by
  have hhyphen : ∀ c ∈ ('-' :: rest).head?, c.isDigit = false := by simp
  unfold yearText
  split
  · next h =>
      -- Four digits: the text begins with neither sign, and the width ends the number.
      have hnat : y.toNat < 10 ^ 4 := by omega
      cases hpadded : padded 4 y.toNat with
      | nil => exact absurd hpadded (padded_ne_nil 4 _)
      | cons d ds =>
          have hd : d.isDigit = true := isDigit_of_mem_padded (hpadded ▸ List.mem_cons_self)
          have hnumber := number_padded (by decide) hnat ('-' :: rest)
          have htrim := trimStart_padded 4 y.toNat ('-' :: rest)
          rw [hpadded] at hnumber htrim
          rw [year, htrim]
          split
          · next heq => cases heq; cases hd
          · next heq => cases heq; cases hd
          · rw [hnumber, Option.map_some, Int.toNat_of_nonneg h.1]
  · next h =>
      -- A sign, and then all the digits there are.
      have hnumber := longNumber_padded 4 y.natAbs hhyphen
      by_cases hneg : y < 0
      · have htrim (t : Text) : Text.trimStart ('-' :: t) = '-' :: t := rfl
        rw [if_pos hneg, List.cons_append, year, htrim]
        simp only [hnumber, Option.map_some, Option.some.injEq, Prod.mk.injEq, and_true]
        omega
      · have htrim (t : Text) : Text.trimStart ('+' :: t) = '+' :: t := rfl
        rw [if_neg hneg, List.cons_append, year, htrim]
        simp only [hnumber, Option.map_some, Option.some.injEq, Prod.mk.injEq, and_true]
        omega

/-- A fraction of at most nine digits is read back. -/
theorem fraction_padded {width n : Nat} (hwidth : 0 < width) (hnine : width ≤ 9)
    (h : n < 10 ^ width) {rest : Text} (hrest : ∀ c ∈ rest.head?, c.isDigit = false) :
    fraction ('.' :: (padded width n ++ rest)) = some (n * Nat.pow 10 (9 - width), rest) := by
  have hlen := length_padded hwidth h
  obtain ⟨htake, hdrop⟩ := Text.takeWhile_append_of_head
    (fun c (hc : c ∈ padded width n) => isDigit_of_mem_padded hc) hrest
  have hkept : (padded width n).take 9 = padded width n :=
    List.take_of_length_le (by rw [hlen]; exact hnine)
  simp only [fraction, htake, hdrop, if_neg (padded_ne_nil width n), hkept, hlen,
    digitsValue_padded]

/-- The fraction of a second is read back. -/
theorem fraction_fractionText {n : Nat} (h : n < 10 ^ 9) (rest : Text) :
    fraction (fractionText n ++ 'Z' :: rest) = some (n, 'Z' :: rest) := by
  have hz : ∀ c ∈ ('Z' :: rest).head?, c.isDigit = false := by simp
  unfold fractionText
  split
  · next h0 => rw [h0]; rfl
  split
  · next hmilli =>
      rw [List.cons_append, fraction_padded (by decide) (by decide) (by omega) hz]
      have : n / 1000000 * Nat.pow 10 (9 - 3) = n := by
        rw [show Nat.pow 10 (9 - 3) = 1000000 from rfl]
        omega
      rw [this]
  split
  · next hmicro =>
      rw [List.cons_append, fraction_padded (by decide) (by decide) (by omega) hz]
      have : n / 1000 * Nat.pow 10 (9 - 6) = n := by
        rw [show Nat.pow 10 (9 - 6) = 1000 from rfl]
        omega
      rw [this]
  · rw [List.cons_append, fraction_padded (by decide) (by decide) (by omega) hz]
    simp

/-! ## Whole instants -/

/-- The date exists, in a year that instants may have, and the time is one of that day. -/
structure IsReal (i : Instant) : Prop where
  date : i.date.isValid = true
  year : yearInRange i.date.year = true
  minute : i.minute < 1440
  second : i.second ≤ 60
  nanosecond : i.nanosecond < 10 ^ 9

/-- The designator of UTC ends the written form. -/
theorem offset_designator : offset (Text.trimStart ['Z']) = some (0, []) := rfl

/-- An instant in UTC needs no other day. -/
theorem atOffset_zero {i : Instant} (h : i.IsReal) :
    atOffset i.date (60 * (i.minute / 60) + i.minute % 60) i.second i.nanosecond 0 = i := by
  have hminute : 60 * (i.minute / 60) + i.minute % 60 = i.minute := Nat.div_add_mod _ _
  have := h.minute
  rw [hminute, atOffset, if_neg (by omega), if_neg (by omega)]
  simp

/-- **An instant is read back from its written form.** -/
theorem parse?_text {i : Instant} (h : i.IsReal) : parse? i.text = some i := by
  have hdate := h.date
  simp only [Date.isValid, Bool.and_eq_true, decide_eq_true_eq] at hdate
  have hmonth : i.date.month < 100 := by omega
  have hday : i.date.day < 100 := by
    have : Date.monthLength i.date.year i.date.month ≤ 31 := by
      unfold Date.monthLength
      split <;> split <;> omega
    omega
  have hminute := h.minute
  have hsecond := h.second
  have hhyphen : isBlank '-' = false := by decide
  have hcolon : isBlank ':' = false := by decide
  have hhour : i.minute / 60 ≤ 23 := by omega
  have hrest : i.minute % 60 ≤ 59 := by omega
  -- The parts are read in the order in which they are written.
  refine Option.bind_eq_some_iff.2 ⟨_, year_yearText _ _, ?_⟩
  refine Option.bind_eq_some_iff.2 ⟨_, mark_cons hhyphen _, ?_⟩
  refine Option.bind_eq_some_iff.2 ⟨_, twoDigits_padded hmonth _, ?_⟩
  refine Option.bind_eq_some_iff.2 ⟨_, mark_cons hhyphen _, ?_⟩
  refine Option.bind_eq_some_iff.2 ⟨_, twoDigits_padded hday _, ?_⟩
  refine Option.bind_eq_some_iff.2 ⟨_, twoDigits_padded (by omega) _, ?_⟩
  refine Option.bind_eq_some_iff.2 ⟨_, mark_cons hcolon _, ?_⟩
  refine Option.bind_eq_some_iff.2 ⟨_, twoDigits_padded (by omega) _, ?_⟩
  refine Option.bind_eq_some_iff.2 ⟨_, mark_cons hcolon _, ?_⟩
  refine Option.bind_eq_some_iff.2 ⟨_, twoDigits_padded (by omega) _, ?_⟩
  refine Option.bind_eq_some_iff.2 ⟨_, fraction_fractionText h.nanosecond _, ?_⟩
  refine Option.bind_eq_some_iff.2 ⟨_, offset_designator, ?_⟩
  simp only [atOffset_zero h]
  exact if_pos ⟨rfl, h.date, h.year, hhour, hrest, hsecond, by decide, h.year⟩

end Instant

/-- An instant that is real, such as a clock shows. -/
structure Moment where
  /-- The instant. -/
  instant : Instant
  isReal : instant.IsReal

/-- Noon of the first day of the year 2024. -/
def Moment.noon : Moment := ⟨⟨⟨2024, 1, 1⟩, 720, 0, 0⟩, by constructor <;> decide⟩

end CommentTemplate
