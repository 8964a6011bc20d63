import CommentTemplate.Tag.Form

/-!
# Paired tags

Opening and closing delimiters are matched by counting: the closer of an opener is the first
later delimiter at which the closing delimiters of the same tag outnumber the opening ones.  An
opener without a closer is no tag and stays text, as does a closer that is nobody's.

## Main definitions

* `splitAtCloser` — the delimiters up to the closer of an opener, the closer, and those after it
* `firstPair` — the leftmost opener that has a closer, with everything around it
* `TextPair`, `nextPair` — the same cut of the text itself
* `nextBlock`, `nextReplace` — the first complete block and the first complete replacement tag

## Main statements

* `splitAtCloser_spec`, `firstPair_spec` — the cut of the list of delimiters loses nothing
* `nextPair_spells` — the five pieces of a pair make up the text
* `TextPair.body_lt`, `TextPair.after_lt` — the body and the text after a pair are shorter, which
  is why the expansions that recurse into both come to an end
-/

namespace CommentTemplate

/-- The cut of a list of found delimiters at the closer of the tag `d`, of which `depth` inner
tags are still open: the delimiters before the closer, the closer, and those after it. -/
def splitAtCloser (d : Delimiter) :
    Nat → List (Found Delimiter) →
      Option (List (Found Delimiter) × Found Delimiter × List (Found Delimiter))
  | _, [] => none
  | depth, f :: fs =>
    if f.tag.sameTag d then
      if f.tag.opening then
        (splitAtCloser d (depth + 1) fs).map fun r => (f :: r.1, r.2)
      else
        match depth with
        | 0 => some ([], f, fs)
        | depth + 1 => (splitAtCloser d depth fs).map fun r => (f :: r.1, r.2)
    else
      (splitAtCloser d depth fs).map fun r => (f :: r.1, r.2)

/-- A cut at a closer is a cut of the list. -/
theorem splitAtCloser_spec {d : Delimiter} {depth : Nat} {fs inner rest : List (Found Delimiter)}
    {c : Found Delimiter} (h : splitAtCloser d depth fs = some (inner, c, rest)) :
    inner ++ c :: rest = fs := by
  induction fs generalizing depth inner with
  | nil => simp [splitAtCloser] at h
  | cons f fs ih =>
    have step {n : Nat}
        (hn : (splitAtCloser d n fs).map (fun r => (f :: r.1, r.2)) = some (inner, c, rest)) :
        inner ++ c :: rest = f :: fs := by
      simp only [Option.map_eq_some_iff, Prod.exists, Prod.mk.injEq] at hn
      obtain ⟨inner', c', rest', hn, rfl, rfl, rfl⟩ := hn
      simpa using ih hn
    unfold splitAtCloser at h
    split at h
    · split at h
      · exact step h
      · split at h
        · simp only [Option.some.injEq, Prod.mk.injEq] at h
          obtain ⟨rfl, rfl, rfl⟩ := h
          rfl
        · exact step h
    · exact step h

/-- A complete tag among found delimiters. -/
structure DelimiterPair where
  /-- The delimiters before the opener. -/
  skipped : List (Found Delimiter)
  /-- The opener. -/
  opener : Found Delimiter
  /-- The delimiters between the two ends. -/
  inner : List (Found Delimiter)
  /-- The closer. -/
  closer : Found Delimiter
  /-- The delimiters after the closer. -/
  rest : List (Found Delimiter)
deriving DecidableEq

/-- The leftmost opener that has a closer. -/
def firstPair : List (Found Delimiter) → Option DelimiterPair
  | [] => none
  | f :: fs =>
    let later := (firstPair fs).map fun p => { p with skipped := f :: p.skipped }
    if f.tag.opening then
      match splitAtCloser f.tag 0 fs with
      | some (inner, c, rest) => some ⟨[], f, inner, c, rest⟩
      | none => later
    else
      later

/-- The parts of a first pair make up the list. -/
theorem firstPair_spec {fs : List (Found Delimiter)} {p : DelimiterPair}
    (h : firstPair fs = some p) :
    p.skipped ++ p.opener :: (p.inner ++ p.closer :: p.rest) = fs := by
  induction fs generalizing p with
  | nil => simp [firstPair] at h
  | cons f fs ih =>
    have later (h : (firstPair fs).map (fun p => { p with skipped := f :: p.skipped }) = some p) :
        p.skipped ++ p.opener :: (p.inner ++ p.closer :: p.rest) = f :: fs := by
      obtain ⟨q, hq, rfl⟩ := Option.map_eq_some_iff.1 h
      simp [← ih hq]
    rw [firstPair] at h
    split at h
    · split at h
      · next hs =>
        cases h
        simp [splitAtCloser_spec hs]
      · exact later h
    · exact later h

/-- A text cut at a complete paired tag. -/
structure TextPair where
  /-- The text before the tag. -/
  before : Text
  /-- The name at the opening end. -/
  name : Text
  /-- The spelling of the opening end. -/
  opener : Text
  /-- The text between the two ends. -/
  body : Text
  /-- The spelling of the closing end. -/
  closer : Text
  /-- The text after the tag. -/
  after : Text
deriving DecidableEq, Repr

/-- The whole text. -/
def TextPair.text (p : TextPair) : Text :=
  p.before ++ p.opener ++ p.body ++ p.closer ++ p.after

/-- The cut of the text that corresponds to a cut of the delimiters scanned from it. -/
def DelimiterPair.toText (p : DelimiterPair) (tail : Text) : TextPair where
  before := Found.texts p.skipped ++ p.opener.before
  name := p.opener.tag.name
  opener := p.opener.raw
  body := Found.texts p.inner ++ p.closer.before
  closer := p.closer.raw
  after := Found.texts p.rest ++ tail

/-- The first complete tag of a text, among the delimiters that `r` finds. -/
def nextPair (r : Recognizer Delimiter) (s : Text) : Option TextPair :=
  (firstPair (r.scan s).found).map fun p => p.toText (r.scan s).tail

/-- The pieces of a pair make up the text. -/
theorem nextPair_spells {r : Recognizer Delimiter} {s : Text} {p : TextPair}
    (h : nextPair r s = some p) : p.text = s := by
  obtain ⟨q, hq, rfl⟩ := Option.map_eq_some_iff.1 h
  conv => rhs; rw [← r.text_scan s, Scan.text, ← firstPair_spec hq]
  simp [DelimiterPair.toText, TextPair.text]

/-- Every tag of a scan has a spelling that is not empty. -/
theorem Recognizer.raw_ne_nil_of_mem_scan {α : Type} (r : Recognizer α) (s : Text) :
    ∀ f ∈ (r.scan s).found, f.raw ≠ [] := by
  induction hn : s.length using Nat.strongRecOn generalizing s with
  | ind n ih =>
    subst hn
    cases h : r.run s with
    | some t =>
      obtain ⟨tag, raw, rest⟩ := t
      rw [r.scan_of_run h]
      intro f hf
      rcases List.mem_cons.1 hf with rfl | hf
      · exact r.nonempty h
      · exact ih _ (r.rest_lt h) _ rfl f hf
    | none =>
      cases s with
      | nil => simp
      | cons c s =>
        rw [r.scan_of_none h]
        have := ih _ (by simp) s rfl
        generalize r.scan s = t at this
        rcases t with ⟨_ | ⟨g, gs⟩, tail⟩
        · simp [Scan.shift]
        · simpa [Scan.shift] using this

/-- Both ends of a pair have a spelling that is not empty. -/
theorem nextPair_opener_ne_nil {r : Recognizer Delimiter} {s : Text} {p : TextPair}
    (h : nextPair r s = some p) : p.opener ≠ [] := by
  obtain ⟨q, hq, rfl⟩ := Option.map_eq_some_iff.1 h
  refine r.raw_ne_nil_of_mem_scan s q.opener ?_
  rw [← firstPair_spec hq]
  simp

/-- The body of a pair is shorter than the text. -/
theorem nextPair_body_lt {r : Recognizer Delimiter} {s : Text} {p : TextPair}
    (h : nextPair r s = some p) : p.body.length < s.length := by
  have := List.length_pos_iff.2 (nextPair_opener_ne_nil h)
  rw [← nextPair_spells h, TextPair.text]
  simp only [List.length_append]
  omega

/-- What follows a pair is shorter than the text. -/
theorem nextPair_after_lt {r : Recognizer Delimiter} {s : Text} {p : TextPair}
    (h : nextPair r s = some p) : p.after.length < s.length := by
  have := List.length_pos_iff.2 (nextPair_opener_ne_nil h)
  rw [← nextPair_spells h, TextPair.text]
  simp only [List.length_append]
  omega

/-- The first complete block of a text. -/
def nextBlock (s : Text) : Option TextPair := nextPair blockDelimiter s

/-- The first complete replacement tag of a text. -/
def nextReplace (s : Text) : Option TextPair := nextPair replaceDelimiter s

end CommentTemplate
