import CommentTemplate.Text.Basic

/-!
# The UTF-8 form of a text

## Main definitions

* `encodeUtf8` — the bytes of a text
* `decodeUtf8` — the text of some bytes, if they are UTF-8
* `decodeUtf8Lossy` — the text of any bytes

## Main statements

* `decodeUtf8_encodeUtf8`, `decodeUtf8Lossy_encodeUtf8` — a text is read back from its bytes

## Design decisions

**Repair.**  Where bytes are not UTF-8, each longest run of bytes that some UTF-8 character could
begin with is read as one U+FFFD, and so is each byte that no character begins with.
-/

namespace CommentTemplate

/-- The bytes of a text in UTF-8. -/
def encodeUtf8 (t : Text) : ByteArray := (String.ofList t).toUTF8

/-- The text of some bytes, if they are UTF-8. -/
def decodeUtf8 (bytes : ByteArray) : Option Text := (String.fromUTF8? bytes).map String.toList

/-- A text is read back from its bytes. -/
@[simp] theorem decodeUtf8_encodeUtf8 (t : Text) : decodeUtf8 (encodeUtf8 t) = some t := by
  have h : String.fromUTF8? (String.ofList t).toUTF8 = some (String.ofList t) := by
    unfold String.fromUTF8?
    rw [dif_pos]
    rfl
  rw [decodeUtf8, encodeUtf8, h, Option.map_some, String.toList_ofList]

/-! ## Repair -/

/-- The ranges of the bytes that follow a leading byte in a UTF-8 character; none if no character
begins with that byte. -/
def trailingRanges (lead : UInt8) : Option (List (UInt8 × UInt8)) :=
  let any : UInt8 × UInt8 := (0x80, 0xBF)
  if lead ≤ 0x7F then some []
  else if lead < 0xC2 then none
  else if lead ≤ 0xDF then some [any]
  else if lead = 0xE0 then some [(0xA0, 0xBF), any]
  else if lead = 0xED then some [(0x80, 0x9F), any]
  else if lead ≤ 0xEF then some [any, any]
  else if lead = 0xF0 then some [(0x90, 0xBF), any, any]
  else if lead ≤ 0xF3 then some [any, any, any]
  else if lead = 0xF4 then some [(0x80, 0x8F), any, any]
  else none

/-- The leading bytes that lie in successive ranges, as long as they do, and the rest. -/
def takeRanges : List (UInt8 × UInt8) → List UInt8 → List UInt8 × List UInt8
  | r :: rs, b :: bs =>
    if r.1 ≤ b ∧ b ≤ r.2 then
      let t := takeRanges rs bs
      (b :: t.1, t.2)
    else ([], b :: bs)
  | _, bs => ([], bs)

theorem takeRanges_le (rs : List (UInt8 × UInt8)) (bs : List UInt8) :
    (takeRanges rs bs).2.length ≤ bs.length := by
  induction rs generalizing bs with
  | nil => simp [takeRanges]
  | cons r rs ih =>
    cases bs with
    | nil => simp [takeRanges]
    | cons b bs =>
      rw [takeRanges]
      split
      · exact Nat.le_succ_of_le (ih bs)
      · simp

/-- The character of a leading byte and all the bytes that follow it. -/
def assemble (lead : UInt8) (trail : List UInt8) : Char :=
  let bits := match trail.length with
    | 0 => lead.toNat
    | n + 1 => lead.toNat % Nat.pow 2 (5 - n)
  Char.ofNat (trail.foldl (fun n b => 64 * n + b.toNat % 64) bits)

/-- The text of any bytes, with U+FFFD for what is not UTF-8. -/
def repairUtf8 : List UInt8 → Text
  | [] => []
  | b :: bs =>
    match trailingRanges b with
    | none => '\uFFFD' :: repairUtf8 bs
    | some ranges =>
      have := takeRanges_le ranges bs
      let t := takeRanges ranges bs
      (if t.1.length = ranges.length then assemble b t.1 else '\uFFFD') :: repairUtf8 t.2
termination_by bs => bs.length
decreasing_by all_goals simp only [List.length_cons]; omega

/-- The text of any bytes: as they are if they are UTF-8, and repaired otherwise. -/
def decodeUtf8Lossy (bytes : ByteArray) : Text :=
  (decodeUtf8 bytes).getD (repairUtf8 bytes.toList)

/-- A text is read back from its bytes. -/
@[simp] theorem decodeUtf8Lossy_encodeUtf8 (t : Text) : decodeUtf8Lossy (encodeUtf8 t) = t := by
  simp [decodeUtf8Lossy]

end CommentTemplate
