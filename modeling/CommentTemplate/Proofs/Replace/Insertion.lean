import Mathlib.Control.Monad.Basic
import CommentTemplate.Proofs.Compile.Stages

/-!
# A replacement tag put into a template

A template that gives a block its content in a replacement tag is compiled like the template
without the tag, with that content among the replacements of the settings.  It makes no difference
where the tag stands, not even if that is in the middle of another tag: the delimiters of
replacement tags have a single angle bracket to the right, which is their first character, so
nothing that was there before can make a delimiter with a part of the tag.

## Main definitions

* `replaceTag` — a replacement tag as it is written

## Main statements

* `notMem_tail_of_isSpelling` — delimiters have their angle bracket at the beginning
* `isSpelling_replaceOpener` — the opening end of a tag is read as such
* `scan_replaceTag` — of the text with the tag the two ends of the tag are found
* `compile_replaceTag` — the tag is as good as a replacement in the settings
-/

namespace CommentTemplate

/-! ## The characters of a tag -/

theorem ReplaceEnd.notMem_bracket {d : Delimiter} {t : Text} (h : ReplaceEnd d t) : '<' ∉ t := by
  cases h with
  | opener h =>
      obtain ⟨hw, hgap, -, hname⟩ := h
      simp only [List.mem_append, not_or]
      exact ⟨hw.notMem (by decide), hgap.notMem (by decide), hname.notMem (by decide)⟩
  | closer h => exact h.notMem (by decide)

/-- A delimiter of a replacement tag has its angle bracket at the beginning and nowhere else. -/
theorem notMem_tail_of_isSpelling {d : Delimiter} {raw : Text}
    (h : replaceDelimiter.IsSpelling d raw) : '<' ∉ raw.tail := by
  obtain ⟨hgap, hcontent, hgap'⟩ := (Recognizer.isSpelling_iff reads_replaceDelimiter).1 h
  rw [List.tail_append_of_ne_nil (by decide)]
  simp only [List.mem_append, not_or]
  exact ⟨by decide, hgap.notMem (by decide), hcontent.notMem_bracket, hgap'.notMem (by decide),
    by decide⟩

/-- No delimiter begins in a text and ends in one that begins with an angle bracket. -/
theorem not_straddles_bracket (a b : Text) : ¬replaceDelimiter.Straddles a ('<' :: b) := by
  rintro ⟨front, u, v, back, tag, -, hv, hu, hne, htag⟩
  obtain ⟨c, u, rfl⟩ := List.exists_cons_of_ne_nil hu
  obtain ⟨d, v, rfl⟩ := List.exists_cons_of_ne_nil hne
  obtain ⟨rfl, -⟩ := List.cons.inj hv
  exact notMem_tail_of_isSpelling htag (by simp)

/-! ## A tag as it is written -/

/-- The opening end of a replacement tag. -/
def replaceOpener (name : Text) : Text := "<!-- REPLACE ".toList ++ (name ++ " -->".toList)

/-- The closing end of a replacement tag. -/
def replaceCloser : Text := "<!-- /REPLACE -->".toList

/-- A replacement tag that gives a block its content. -/
def replaceTag (name content : Text) : Text := replaceOpener name ++ (content ++ replaceCloser)

theorem isSpelling_replaceOpener {name : Text} (hne : name ≠ [])
    (hname : ∀ c ∈ name, isNameChar c = true) :
    replaceDelimiter.IsSpelling ⟨.replacement, true, name⟩ (replaceOpener name) := by
  have hspace : IsRun isBlank [' '] := ⟨nofun, List.forall_mem_singleton.2 (by decide)⟩
  have hcontent : ReplaceEnd ⟨.replacement, true, name⟩ ("REPLACE".toList ++ ([' '] ++ name)) :=
    .opener (.intro (by rw [SpellsWord]; decide) hspace ⟨rfl, hne, hname⟩)
  have htag : InComment ReplaceEnd ⟨.replacement, true, name⟩ (replaceOpener name) :=
    .intro hspace hcontent hspace
  exact (Recognizer.isSpelling_iff reads_replaceDelimiter).2 htag

theorem isSpelling_replaceCloser :
    replaceDelimiter.IsSpelling ⟨.replacement, false, []⟩ replaceCloser := by
  rw [Recognizer.IsSpelling]
  decide +kernel

/-! ## The text with a tag -/

/-- Nothing begins in front of an end of a tag. -/
theorem skips_bracket {a : Text} (h : replaceDelimiter.Skips a []) (b : Text) :
    replaceDelimiter.Skips a ('<' :: b) :=
  (Recognizer.skips_iff_not_straddles closed_replaceDelimiter h).2 (not_straddles_bracket a b)

/-- A text without delimiters has no complete tag. -/
theorem nextReplace_of_found_nil {s : Text} (h : (replaceDelimiter.scan s).found = []) :
    nextReplace s = none := by
  rw [nextReplace, nextPair, h]
  rfl

section Insertion

variable {name content front back : Text} {policy : Policy} (hne : name ≠ [])
  (hname : ∀ c ∈ name, isNameChar c = true) (hcontent : (replaceDelimiter.scan content).found = [])
  (hfound : (replaceDelimiter.scan (front ++ back)).found = [])

include hne hname hcontent hfound

/-- **The delimiters of the text with a tag** are the two ends of the tag, wherever it stands. -/
theorem scan_replaceTag : replaceDelimiter.scan (front ++ (replaceTag name content ++ back)) =
    ⟨[⟨front, ⟨.replacement, true, name⟩, replaceOpener name⟩,
      ⟨content, ⟨.replacement, false, []⟩, replaceCloser⟩], back⟩ := by
  rw [Recognizer.found_eq_nil_iff, Recognizer.skips_append, List.append_nil] at hfound
  obtain ⟨hfront, hback⟩ := hfound
  have hbefore : replaceDelimiter.Skips front [] := hfront.cut (t := []) closed_replaceDelimiter
  have hbehind : replaceDelimiter.scan (content ++ (replaceCloser ++ back)) =
      ⟨[⟨content, ⟨.replacement, false, []⟩, replaceCloser⟩], back⟩ := by
    rw [Recognizer.scan_append_of_isSpelling closed_replaceDelimiter isSpelling_replaceCloser
        (skips_bracket (Recognizer.found_eq_nil_iff.1 hcontent) _),
      Recognizer.scan_eq_of_found_nil (Recognizer.found_eq_nil_iff.2 hback)]
  rw [replaceTag, List.append_assoc, List.append_assoc,
    Recognizer.scan_append_of_isSpelling closed_replaceDelimiter
      (isSpelling_replaceOpener hne hname) (skips_bracket hbefore _), hbehind]

/-- The first complete tag is the one that was put in. -/
theorem nextReplace_replaceTag :
    nextReplace (front ++ (replaceTag name content ++ back)) =
      some ⟨front, name, replaceOpener name, content, replaceCloser, back⟩ := by
  rw [nextReplace, nextPair, scan_replaceTag hne hname hcontent hfound]
  simp [firstPair, splitAtCloser, Delimiter.sameTag, DelimiterPair.toText]

/-- The extraction takes out the tag and gives its content. -/
theorem extractReplacements_replaceTag (hlimit : 1 ≤ policy.limit) :
    extractReplacements policy (front ++ (replaceTag name content ++ back)) =
      .ok (front ++ back, Dict.empty.insert name content) := by
  have hnext := nextReplace_replaceTag hne hname hcontent hfound
  have hback : (replaceDelimiter.scan back).found = [] := by
    rw [Recognizer.found_eq_nil_iff] at hfound ⊢
    exact (Recognizer.skips_append.1 hfound).2
  rw [extractReplacements, extractAt_of_entered hnext hlimit,
    extractAt_of_none (nextReplace_of_found_nil hcontent)]
  simp only [bind, Except.bind]
  rw [extractAt_of_none (nextReplace_of_found_nil hback)]
  rfl

end Insertion

/-- **A replacement tag is as good as a replacement in the settings**, wherever in the template it
stands: in the middle of a block, of another tag or of what would be another tag. -/
theorem compile_replaceTag (s : Settings) (loader : Option Loader) {name content front back : Text}
    (hlimit : 1 ≤ s.config.recursionLimit) (hne : name ≠ [])
    (hname : ∀ c ∈ name, isNameChar c = true) (hplain : includedPaths (front ++ back) = [])
    (htagged : includedPaths (front ++ (replaceTag name content ++ back)) = [])
    (hfound : (replaceDelimiter.scan (front ++ back)).found = [])
    (hcontent : (replaceDelimiter.scan content).found = []) :
    s.compile loader (front ++ (replaceTag name content ++ back)) =
      (s.setReplacements [(name, content)] true).compile loader (front ++ back) := by
  have hextract : extractReplacements s.config.policy
      (front ++ (replaceTag name content ++ back)) =
        .ok (front ++ back, Dict.empty.insert name content) :=
    extractReplacements_replaceTag hne hname hcontent hfound hlimit
  have hnothing : extractReplacements s.config.policy (front ++ back) =
      .ok (front ++ back, Dict.empty) :=
    extractReplacements_of_no_tag (nextReplace_of_found_nil hfound)
  -- A binding given by the template wins like one that is added to the settings.
  have hrules : s.blockRules (Dict.empty.insert name content) =
      (s.setReplacements [(name, content)] true).blockRules Dict.empty := rfl
  rw [Settings.compile, Settings.compile, resolveIncludes_of_no_tag hplain,
    resolveIncludes_of_no_tag htagged]
  show (extractReplacements s.config.policy _ >>= _) = (extractReplacements s.config.policy _ >>= _)
  rw [hextract, hnothing]
  simp only [bind, Except.bind, hrules]

/-- Settings that refuse more than one level of tags, with a content for the block `a`. -/
def oneLevel : Settings where
  config := { strict := true, recursionLimit := 1 }
  replacements := Dict.ofList [("a".toList, "old".toList)]

/-- A tag in the middle of the keyword of a block: without it the block comes about, and with it
the block has the content of the tag. -/
theorem compile_tagInKeyword :
    let front := "<!-- BEG".toList
    let back := "IN a -->x<!-- END a -->{u}".toList
    let content := "<!--{v}".toList
    (replaceDelimiter.scan (front ++ back)).found = [] ∧
    (replaceDelimiter.scan content).found = [] ∧
    oneLevel.compile none (front ++ (replaceTag "a".toList content ++ back)) =
      (oneLevel.setReplacements [("a".toList, content)] true).compile none (front ++ back) ∧
    (oneLevel.setReplacements [("a".toList, content)] true).compile none (front ++ back) =
      .ok ⟨⟨[.loopOpen "a".toList, .literal "<!--".toList, .varRef "v".toList none,
        .loopClose "a".toList, .varRef "u".toList none]⟩, ["a".toList],
        ["v".toList, "u".toList]⟩ := by
  have hfound : (replaceDelimiter.scan ("<!-- BEG".toList ++
      "IN a -->x<!-- END a -->{u}".toList)).found = [] := by
    decide +kernel
  have hcontent : (replaceDelimiter.scan "<!--{v}".toList).found = [] := by decide +kernel
  exact ⟨hfound, hcontent,
    compile_replaceTag oneLevel none (by decide) (by decide)
      (List.forall_mem_singleton.2 (by decide)) (by decide +kernel) (by decide +kernel) hfound
      hcontent,
    by decide +kernel⟩

end CommentTemplate
