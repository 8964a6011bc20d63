import CommentTemplate.Text.Piece

/-!
# Scanning a text for tags

A scan cuts a text into the tags that a recogniser finds and the text between them: the leftmost
tag first, the next one sought from its end on, so that tags never overlap.

## Main definitions

* `Recognizer.scan` — the scan of a text
* `Scan.text` — the text that a scan was cut from

## Main statements

* `Recognizer.text_scan` — a scan loses and adds nothing
* `Recognizer.scan_of_run`, `Recognizer.scan_of_none` — a scan takes a tag where there is one and
  otherwise moves on by one character
-/

namespace CommentTemplate

/-- A tag found in a text, with its spelling and the text since the tag before. -/
structure Found (α : Type) where
  /-- The text between the previous tag and this one. -/
  before : Text
  /-- What the tag says. -/
  tag : α
  /-- How the tag is written. -/
  raw : Text
deriving DecidableEq, Repr

/-- The text of a found tag, with the text before it. -/
def Found.text {α : Type} (f : Found α) : Text := f.before ++ f.raw

/-- The text of successive found tags. -/
def Found.texts {α : Type} (fs : List (Found α)) : Text := fs.flatMap Found.text

@[simp] theorem Found.texts_nil {α : Type} : Found.texts ([] : List (Found α)) = [] := rfl

@[simp] theorem Found.texts_cons {α : Type} (f : Found α) (fs : List (Found α)) :
    Found.texts (f :: fs) = f.before ++ (f.raw ++ Found.texts fs) := by
  simp [Found.texts, Found.text]

@[simp] theorem Found.texts_append {α : Type} (fs gs : List (Found α)) :
    Found.texts (fs ++ gs) = Found.texts fs ++ Found.texts gs := by
  simp [Found.texts]

/-- A text cut into the tags found in it and what follows the last one. -/
structure Scan (α : Type) where
  /-- The tags, left to right. -/
  found : List (Found α)
  /-- The text after the last tag. -/
  tail : Text
deriving DecidableEq, Repr

namespace Scan

variable {α : Type}

/-- The scanned text. -/
def text (s : Scan α) : Text := Found.texts s.found ++ s.tail

/-- The scan with one more character in front of everything. -/
def shift (c : Char) : Scan α → Scan α
  | ⟨[], tail⟩ => ⟨[], c :: tail⟩
  | ⟨f :: fs, tail⟩ => ⟨{ f with before := c :: f.before } :: fs, tail⟩

/-- The scan with one more tag in front of everything. -/
def push (tag : α) (raw : Text) (s : Scan α) : Scan α := ⟨⟨[], tag, raw⟩ :: s.found, s.tail⟩

@[simp] theorem text_shift (c : Char) (s : Scan α) : (s.shift c).text = c :: s.text := by
  rcases s with ⟨_ | ⟨f, fs⟩, tail⟩ <;> simp [shift, text]

@[simp] theorem text_push (tag : α) (raw : Text) (s : Scan α) :
    (s.push tag raw).text = raw ++ s.text := by
  simp [push, text]

/-- Each found tag with the byte offsets of its start and end, for a scan that starts at byte
`start` of some larger text. -/
def spans (start : Nat) : List (Found α) → List (α × Nat × Nat)
  | [] => []
  | f :: fs =>
    let first := start + Text.utf8Size f.before
    let last := first + Text.utf8Size f.raw
    (f.tag, first, last) :: spans last fs

end Scan

namespace Recognizer

variable {α : Type}

/-- All tags of a text: the leftmost one, then those of the text after it. -/
def scan (r : Recognizer α) (s : Text) : Scan α :=
  match h : r.run s with
  | some (tag, raw, rest) =>
    have : rest.length < s.length := r.rest_lt h
    (r.scan rest).push tag raw
  | none =>
    match s with
    | [] => ⟨[], []⟩
    | c :: s => (r.scan s).shift c
termination_by s.length
decreasing_by
  · exact this
  · exact Nat.lt_succ_self _

theorem scan_of_run (r : Recognizer α) {s tag raw rest} (h : r.run s = some (tag, raw, rest)) :
    r.scan s = (r.scan rest).push tag raw := by
  rw [scan]
  split
  · simp_all
  · simp_all

theorem scan_of_none (r : Recognizer α) {c s} (h : r.run (c :: s) = none) :
    r.scan (c :: s) = (r.scan s).shift c := by
  rw [scan]
  split
  · simp_all
  · rfl

/-- The empty text has no tags. -/
@[simp] theorem scan_nil (r : Recognizer α) : r.scan [] = ⟨[], []⟩ := by
  rw [scan]
  split
  · next h => exact absurd (r.rest_lt h) (by simp)
  · rfl

/-- A scan cuts its text into pieces and does nothing else to it. -/
@[simp] theorem text_scan (r : Recognizer α) (s : Text) : (r.scan s).text = s := by
  induction hn : s.length using Nat.strongRecOn generalizing s with
  | ind n ih =>
    subst hn
    cases h : r.run s with
    | some t =>
      obtain ⟨tag, raw, rest⟩ := t
      rw [scan_of_run r h, Scan.text_push, ih _ (r.rest_lt h) _ rfl, r.splits h]
    | none =>
      cases s with
      | nil => simp [Scan.text]
      | cons c s => rw [scan_of_none r h, Scan.text_shift, ih _ (by simp) _ rfl]

end Recognizer

end CommentTemplate
