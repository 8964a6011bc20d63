import CommentTemplate.Proofs.Tag.Forest

/-!
# The ends of complete tags

A complete tag begins with an opening delimiter and ends with a closing one of the same tag.  The
search for pairs cuts the text there, and the cut carries no more than the two spellings; here
they are read again, each for itself.

## Main definitions

* `Recognizer.Ends` — two texts that open and close a tag of some name
* `Forest.Delimited` — a forest all of whose trees have such texts at their ends

## Main statements

* `firstPair_ends` — the two ends of the first pair
* `delimited_forest` — the forest of a text is delimited
* `ends_blockDelimiter` — both ends of a block carry its name
-/

namespace CommentTemplate

/-- The cut at a closer is at a closing delimiter of the tag. -/
theorem closer_of_splitAtCloser {d : Delimiter} {depth : Nat}
    {fs inner rest : List (Found Delimiter)} {c : Found Delimiter}
    (h : splitAtCloser d depth fs = some (inner, c, rest)) :
    c.tag.sameTag d = true ∧ c.tag.opening = false := by
  induction fs generalizing depth inner with
  | nil => simp [splitAtCloser] at h
  | cons f fs ih =>
      have step {n : Nat}
          (hn : (splitAtCloser d n fs).map (fun r => (f :: r.1, r.2)) = some (inner, c, rest)) :
          c.tag.sameTag d = true ∧ c.tag.opening = false := by
        obtain ⟨⟨inner', r⟩, hn, heq⟩ := Option.map_eq_some_iff.1 hn
        obtain ⟨-, rfl⟩ := Prod.mk.inj heq
        exact ih hn
      unfold splitAtCloser at h
      split at h
      · next hsame =>
          split at h
          · exact step h
          · next hclosing =>
              split at h
              · cases h
                exact ⟨hsame, Bool.not_eq_true _ ▸ hclosing⟩
              · exact step h
      · exact step h

/-- A first pair is an opening delimiter and a closing one of the same tag. -/
theorem firstPair_ends {fs : List (Found Delimiter)} {p : DelimiterPair}
    (h : firstPair fs = some p) : p.opener.tag.opening = true ∧
      p.closer.tag.opening = false ∧ p.closer.tag.sameTag p.opener.tag = true := by
  induction fs generalizing p with
  | nil => simp [firstPair] at h
  | cons f fs ih =>
      have later (h : (firstPair fs).map (fun p => { p with skipped := f :: p.skipped }) = some p) :
          p.opener.tag.opening = true ∧ p.closer.tag.opening = false ∧
            p.closer.tag.sameTag p.opener.tag = true := by
        obtain ⟨q, hq, rfl⟩ := Option.map_eq_some_iff.1 h
        exact @ih q hq
      rw [firstPair] at h
      split at h
      · next hopening =>
          split at h
          · next hs =>
              cases h
              obtain ⟨hsame, hclosing⟩ := closer_of_splitAtCloser hs
              exact ⟨hopening, hclosing, hsame⟩
          · exact later h
      · exact later h

namespace Recognizer

variable {r : Recognizer Delimiter}

/-- Two texts that are read as the two ends of a tag of some name. -/
def Ends (r : Recognizer Delimiter) (name opener closer : Text) : Prop :=
  ∃ d e : Delimiter, d.opening = true ∧ d.name = name ∧ r.IsSpelling d opener ∧
    e.opening = false ∧ e.sameTag d = true ∧ r.IsSpelling e closer

theorem Ends.ne_nil {name opener closer : Text} (h : r.Ends name opener closer) :
    opener ≠ [] ∧ closer ≠ [] := by
  obtain ⟨d, e, -, -, hopener, -, -, hcloser⟩ := h
  exact ⟨hopener.ne_nil, hcloser.ne_nil⟩

/-- The ends of the first complete tag of a text. -/
theorem ends_of_nextPair (hr : r.Closed) {s : Text} {p : TextPair} (h : nextPair r s = some p) :
    r.Ends p.name p.opener p.closer := by
  obtain ⟨q, hq, rfl⟩ := Option.map_eq_some_iff.1 h
  obtain ⟨hopening, hclosing, hsame⟩ := firstPair_ends hq
  have hmem := firstPair_spec hq
  have hopener : q.opener ∈ (r.scan s).found := by simp [← hmem]
  have hcloser : q.closer ∈ (r.scan s).found := by simp [← hmem]
  exact ⟨q.opener.tag, q.closer.tag, hopening, rfl, isSpelling_of_mem_scan hr hopener, hclosing,
    hsame, isSpelling_of_mem_scan hr hcloser⟩

end Recognizer

/-- A forest whose trees begin and end with the two ends of a tag of their name. -/
inductive Forest.Delimited (r : Recognizer Delimiter) : Forest → Prop where
  | leaf (t : Text) : Delimited r (.leaf t)
  | tree (before : Text) {name opener closer : Text} {body after : Forest}
    (ends : r.Ends name opener closer) (hbody : Delimited r body) (hafter : Delimited r after) :
    Delimited r (.tree before name opener body closer after)

/-- **The forest of a text is delimited.** -/
theorem delimited_forest {r : Recognizer Delimiter} (hr : r.Closed) (s : Text) :
    (r.forest s).Delimited r := by
  induction s using nextPair_induction r with
  | leaf s hs =>
      rw [Recognizer.forest_of_nextPair_none hs]
      exact .leaf s
  | tree s p hs ihBody ihAfter =>
      rw [Recognizer.forest_of_nextPair hr hs]
      exact .tree p.before (Recognizer.ends_of_nextPair hr hs) ihBody ihAfter

/-! ## The ends of blocks -/

/-- Both ends of a block carry its name. -/
theorem ends_blockDelimiter {name opener closer : Text}
    (h : blockDelimiter.Ends name opener closer) : ∃ d e : Delimiter,
      d.opening = true ∧ d.name = name ∧ blockDelimiter.IsSpelling d opener ∧
      e.opening = false ∧ e.name = name ∧ blockDelimiter.IsSpelling e closer := by
  obtain ⟨d, e, hopening, rfl, hopener, hclosing, hsame, hcloser⟩ := h
  obtain ⟨_, hcontent⟩ :=
    ((Recognizer.isSpelling_iff reads_blockDelimiter).1 hcloser).exists_content
  have hstyle : e.style ≠ .replacement := hcontent.style_ne
  have hname : e.name = d.name := by
    simp only [Delimiter.sameTag, hstyle, decide_false, Bool.false_or, Bool.and_eq_true,
      decide_eq_true_eq] at hsame
    exact hsame.2
  exact ⟨d, e, hopening, rfl, hopener, hclosing, hname, hcloser⟩

end CommentTemplate
