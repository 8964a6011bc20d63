import CommentTemplate.Proofs.Replace.Insertion
import CommentTemplate.Proofs.Replace.OnePass

/-!
# Replacement tags in joined texts

A text has no complete replacement tag exactly if its closing delimiters come before the opening
ones.  Here some texts are joined whose delimiters are in that order, all of them together.  The
joined text has a complete tag exactly if there is a pair of delimiters in it that were not there
before: an opening one with a closing one behind it, of which at least one does not lie inside a
single text.

## Main definitions

* `ClosersFirst` — delimiters of which the closing ones come first
* `InPiece` — a place in joined texts that lies inside one of them
* `TagArises` — joined texts have a complete tag that does not lie inside them

## Main statements

* `nextReplace_eq_none_iff` — a text without a complete tag, told by the order of its delimiters
* `tags_scan_spelling` — a delimiter is found wherever it stands
* `nextReplace_flatten_eq_none_iff` — joined texts have no complete tag exactly if none comes about
-/

namespace CommentTemplate

/-! ## The order of the delimiters -/

/-- Behind an opening delimiter there are only opening ones. -/
def ClosersFirst (ds : List Delimiter) : Prop :=
  ds.Pairwise fun d e => d.opening = true → e.opening = true

/-- What a pass leaves over has the closing delimiters first. -/
theorem closersFirst_orphans {stack : List EndSpan} (hstack : ∀ e ∈ stack, e.1.opening = true)
    (es : List EndSpan) : ClosersFirst ((matchEnds stack es).orphans.map Prod.fst) := by
  rw [ClosersFirst, List.pairwise_map]
  induction es generalizing stack with
  | nil =>
      have hreverse : ∀ e ∈ stack.reverse, e.1.opening = true := by simpa using hstack
      have hnil : (matchEnds stack []).orphans = stack.reverse := by cases stack <;> rfl
      rw [hnil]
      exact List.pairwise_of_forall_mem_list fun _ _ u hu _ => hreverse u hu
  | cons e es ih =>
      by_cases hopening : e.1.opening = true
      · rw [matchEnds_of_opening hopening]
        exact ih (List.forall_mem_cons.2 ⟨hopening, hstack⟩)
      · have hclosing : e.1.opening = false := Bool.not_eq_true _ ▸ hopening
        cases stack with
        | nil =>
            rw [matchEnds_nil_of_closing hclosing]
            exact List.pairwise_cons.2 ⟨fun u _ h => absurd h hopening, ih hstack⟩
        | cons o stack =>
            rw [matchEnds_cons_of_closing hclosing]
            exact ih (List.forall_mem_cons.1 hstack).2

/-- **A text has no complete tag** exactly if its closing delimiters come first. -/
theorem nextReplace_eq_none_iff {s : Text} :
    nextReplace s = none ↔ ClosersFirst (replaceDelimiter.scan s).tags := by
  rw [nextReplace, nextPair, Option.map_eq_none_iff]
  constructor
  · intro hnone
    have hpass := closersFirst_orphans (List.forall_mem_nil _)
      (Scan.spans 0 (replaceDelimiter.scan s).found)
    rw [matchEnds_eq_firstPair (oneTag_scan_replaceDelimiter s), hnone] at hpass
    exact (map_spans 0 (replaceDelimiter.scan s).found).subst hpass
  · intro h
    cases hpair : firstPair (replaceDelimiter.scan s).found with
    | none => rfl
    | some p =>
        obtain ⟨hopening, hclosing, -⟩ := firstPair_ends hpair
        rw [ClosersFirst, Scan.tags, ← firstPair_spec hpair, List.pairwise_map] at h
        have hbehind := (List.pairwise_cons.1 (List.pairwise_append.1 h).2.1).1 p.closer (by simp)
        simp [hbehind hopening] at hclosing

/-! ## The delimiters of a part -/

/-- **A delimiter is found wherever it stands**, and the scan of what is around it finds the same
as before: its angle bracket keeps it apart. -/
theorem tags_scan_spelling {d : Delimiter} {raw : Text} (h : replaceDelimiter.IsSpelling d raw)
    (a b : Text) : (replaceDelimiter.scan (a ++ (raw ++ b))).tags =
      (replaceDelimiter.scan a).tags ++ d :: (replaceDelimiter.scan b).tags := by
  obtain ⟨_, rest, rfl, rfl⟩ := startsWith_commentTag _ h
  have hjoint : ¬replaceDelimiter.Straddles a ('<' :: rest ++ b) := not_straddles_bracket a _
  rw [Recognizer.tags_scan_append closed_replaceDelimiter hjoint,
    Recognizer.scan_of_run _ (closed_replaceDelimiter h b), Scan.tags_push]

/-- The delimiters of some texts one after the other. -/
def pieceTags (ps : List Text) : List Delimiter :=
  ps.flatMap fun p => (replaceDelimiter.scan p).tags

theorem closersFirst_cons {p : Text} {ps : List Text} : ClosersFirst (pieceTags (p :: ps)) ↔
    ClosersFirst (replaceDelimiter.scan p).tags ∧ ClosersFirst (pieceTags ps) ∧
      ∀ d ∈ (replaceDelimiter.scan p).tags, ∀ e ∈ pieceTags ps,
        d.opening = true → e.opening = true := by
  rw [pieceTags, List.flatMap_cons, ClosersFirst, List.pairwise_append]
  rfl

/-- Some text behind a part of joined texts lies inside one of them. -/
inductive InPiece : List Text → (front raw : Text) → Prop where
  | here (a raw b : Text) (ps : List Text) : InPiece ((a ++ (raw ++ b)) :: ps) a raw
  | later (p : Text) {ps : List Text} {front raw : Text} (h : InPiece ps front raw) :
    InPiece (p :: ps) (p ++ front) raw

/-- A complete tag comes about where some texts are joined: there are an opening delimiter and a
closing one behind it that do not both lie inside one of the texts. -/
inductive TagArises (ps : List Text) : Prop where
  | intro {front opener body closer back : Text} {d e : Delimiter}
    (h : ps.flatten = front ++ (opener ++ (body ++ (closer ++ back))))
    (hopener : replaceDelimiter.IsSpelling d opener) (hopening : d.opening = true)
    (hcloser : replaceDelimiter.IsSpelling e closer) (hclosing : e.opening = false)
    (hnew : ¬(InPiece ps front opener ∧ InPiece ps (front ++ (opener ++ body)) closer)) :
    TagArises ps

section Pieces

variable {ps : List Text} {p front raw : Text} {d e : Delimiter}

theorem inPiece_cons_iff : InPiece (p :: ps) front raw ↔
    (∃ b, p = front ++ (raw ++ b)) ∨ ∃ f, front = p ++ f ∧ InPiece ps f raw := by
  constructor
  · intro h
    cases h with
    | here _ _ b _ => exact .inl ⟨b, rfl⟩
    | later _ h => exact .inr ⟨_, rfl, h⟩
  · rintro (⟨b, rfl⟩ | ⟨f, rfl, h⟩)
    · exact .here front raw b ps
    · exact .later p h

/-- A delimiter inside one of the texts is among their delimiters. -/
theorem InPiece.mem_pieceTags (h : InPiece ps front raw)
    (hraw : replaceDelimiter.IsSpelling d raw) : d ∈ pieceTags ps := by
  induction h with
  | here a raw b ps =>
      rw [pieceTags, List.flatMap_cons, tags_scan_spelling hraw]
      simp
  | later p _ ih =>
      rw [pieceTags, List.flatMap_cons]
      exact List.mem_append_right _ (ih hraw)

/-- Of two delimiters in a text the second one opens a tag if the first one does. -/
theorem ClosersFirst.opening {a opener body closer b : Text}
    (h : ClosersFirst (replaceDelimiter.scan (a ++ (opener ++ (body ++ (closer ++ b))))).tags)
    (hopener : replaceDelimiter.IsSpelling d opener)
    (hcloser : replaceDelimiter.IsSpelling e closer) (hopening : d.opening = true) :
    e.opening = true := by
  rw [tags_scan_spelling hopener, tags_scan_spelling hcloser] at h
  exact (List.pairwise_cons.1 (List.pairwise_append.1 h).2.1).1 e (by simp) hopening

/-- So it does for two delimiters inside of texts that are joined. -/
theorem ClosersFirst.opening_of_inPiece {opener body closer : Text}
    (hps : ClosersFirst (pieceTags ps)) (h : InPiece ps front opener)
    (h' : InPiece ps (front ++ (opener ++ body)) closer)
    (hopener : replaceDelimiter.IsSpelling d opener)
    (hcloser : replaceDelimiter.IsSpelling e closer) (hopening : d.opening = true) :
    e.opening = true := by
  induction ps generalizing front with
  | nil => cases h
  | cons p ps ih =>
      obtain ⟨hhere, hlater, hboth⟩ := closersFirst_cons.1 hps
      rcases inPiece_cons_iff.1 h with ⟨b, hp⟩ | ⟨f, rfl, hin⟩
      · rcases inPiece_cons_iff.1 h' with ⟨b', hp'⟩ | ⟨f', -, hin'⟩
        · -- Both are inside this text.
          rw [hp'] at hhere
          simp only [List.append_assoc] at hhere
          exact hhere.opening hopener hcloser hopening
        · have hmem : d ∈ (replaceDelimiter.scan p).tags := by
            rw [hp, tags_scan_spelling hopener]
            simp
          exact hboth d hmem e (hin'.mem_pieceTags hcloser) hopening
      · rcases inPiece_cons_iff.1 h' with ⟨b', hp'⟩ | ⟨f', hf', hin'⟩
        · -- What is behind the text cannot be inside it.
          have hlength := congrArg List.length hp'
          have hpos := List.length_pos_iff.2 hcloser.ne_nil
          simp only [List.length_append] at hlength
          omega
        · rw [List.append_assoc, List.append_cancel_left_eq] at hf'
          exact ih hlater hin (hf' ▸ hin')

/-! ## Joining -/

/-- **Joined texts have no complete tag exactly if none comes about**, if all their closing
delimiters come first. -/
theorem nextReplace_flatten_eq_none_iff (h : ClosersFirst (pieceTags ps)) :
    nextReplace ps.flatten = none ↔ ¬TagArises ps := by
  constructor
  · rintro hnone ⟨hsplit, hopener, hopening, hcloser, hclosing, -⟩
    rw [nextReplace_eq_none_iff, hsplit] at hnone
    rw [hnone.opening hopener hcloser hopening] at hclosing
    cases hclosing
  · intro hnone
    cases hpair : nextReplace ps.flatten with
    | none => rfl
    | some p =>
        obtain ⟨d, e, hopening, -, hopener, hclosing, -, hcloser⟩ :=
          Recognizer.ends_of_nextPair closed_replaceDelimiter hpair
        have hsplit :
            ps.flatten = p.before ++ (p.opener ++ (p.body ++ (p.closer ++ p.after))) := by
          rw [← nextPair_spells hpair]
          simp [TextPair.text]
        refine absurd (.intro hsplit hopener hopening hcloser hclosing ?_) hnone
        rintro ⟨hin, hin'⟩
        rw [h.opening_of_inPiece hin hin' hopener hcloser hopening] at hclosing
        cases hclosing

/-- Where no delimiter comes about the joined text has the delimiters of the texts. -/
theorem tags_scan_flatten (h : replaceDelimiter.Seamless ps) :
    (replaceDelimiter.scan ps.flatten).tags = pieceTags ps := by
  induction ps with
  | nil => simp [Scan.tags, pieceTags]
  | cons p ps ih =>
      obtain ⟨hjoint, hrest⟩ := h
      rw [List.flatten_cons, Recognizer.tags_scan_append closed_replaceDelimiter hjoint, ih hrest]
      rfl

end Pieces

end CommentTemplate
