import CommentTemplate.Proofs.Text.Lookahead
import CommentTemplate.Tag.Pair

/-!
# Scanning a part of a text again

A scan of a whole text already contains the scans of some of its parts: of what follows a tag,
and of what stands in front of one.  The first holds of every recogniser, since a scan goes on
behind a tag as if the text began there.  The second needs a closed recogniser: a tag that is cut
off from what followed it must still be read, and nothing new may become a tag.

## Main definitions

* `Recognizer.Skips` — no tag begins in some text when another one follows it
* `Recognizer.IsSpelling` — a text that is read whole as one tag
* `Scan.tags` — what the tags of a scan say
* `Recognizer.Straddles` — a tag comes about where two texts are joined
* `Recognizer.Seamless` — no tag comes about where any of some texts are joined

## Main statements

* `Recognizer.scan_eq_cons` — a scan that finds a tag, taken apart at the first one
* `Recognizer.scan_behind` — the scan of what follows some tags
* `Recognizer.scan_before` — the scan of what stands before a tag
* `Recognizer.scan_between`, `Recognizer.isSpelling_of_mem_scan` — the text between the tags has
  none, and each tag is one for itself
* `Recognizer.tags_scan_append` — two texts joined have the tags of both
* `Recognizer.found_flatten_eq_nil_iff` — texts without tags are joined to one without tags exactly
  if no tag comes about
-/

namespace CommentTemplate

/-- Text put in front of a scan character by character goes before the first tag. -/
theorem Scan.foldr_shift_push {α : Type} (b : Text) (tag : α) (raw : Text) (s : Scan α) :
    b.foldr Scan.shift (s.push tag raw) = ⟨⟨b, tag, raw⟩ :: s.found, s.tail⟩ := by
  induction b with
  | nil => rfl
  | cons c b ih => rw [List.foldr_cons, ih]; rfl

/-- Without a tag the text goes to the rest. -/
theorem Scan.foldr_shift_nil {α : Type} (b tail : Text) :
    b.foldr Scan.shift (⟨[], tail⟩ : Scan α) = ⟨[], b ++ tail⟩ := by
  induction b with
  | nil => rfl
  | cons c b ih => rw [List.foldr_cons, ih]; rfl

theorem Scan.found_shift_eq_nil_iff {α : Type} {c : Char} {s : Scan α} :
    (s.shift c).found = [] ↔ s.found = [] := by
  rcases s with ⟨_ | ⟨f, fs⟩, tail⟩ <;> simp [shift]

namespace Recognizer

variable {α : Type} {r : Recognizer α}

/-- No tag begins in `b` when `t` follows it. -/
def Skips (r : Recognizer α) : (b t : Text) → Prop
  | [], _ => True
  | c :: b, t => r.run (c :: (b ++ t)) = none ∧ r.Skips b t

/-- The scan passes over text in which no tag begins. -/
theorem scan_of_skips {b t : Text} (h : r.Skips b t) :
    r.scan (b ++ t) = b.foldr Scan.shift (r.scan t) := by
  induction b with
  | nil => rfl
  | cons c b ih => rw [List.cons_append, scan_of_none r h.1, ih h.2, List.foldr_cons]

/-- Where a closed recogniser finds no tag it finds none in a shorter text either. -/
theorem Skips.cut {b t u : Text} (h : r.Skips b (t ++ u)) (hr : r.Closed) : r.Skips b t := by
  induction b with
  | nil => trivial
  | cons c b ih =>
      refine ⟨?_, ih h.2⟩
      cases hrun : r.run (c :: (b ++ t)) with
      | none => rfl
      | some x =>
          obtain ⟨tag, raw, rest⟩ := x
          have hlong := hr hrun (rest ++ u)
          rw [← List.append_assoc, r.splits hrun, List.cons_append, List.append_assoc, h.1] at hlong
          exact absurd hlong (by simp)

theorem skips_append {a b t : Text} : r.Skips (a ++ b) t ↔ r.Skips a (b ++ t) ∧ r.Skips b t := by
  induction a with
  | nil => simp [Skips]
  | cons c a ih => simp [Skips, ih, and_assoc]

/-- Nothing is found in a text exactly if no tag begins in it. -/
theorem found_eq_nil_iff {s : Text} : (r.scan s).found = [] ↔ r.Skips s [] := by
  constructor
  · intro h
    induction s using Recognizer.scan.induct r with
    | case1 s tag raw rest hrun _ ih =>
        rw [scan_of_run r hrun] at h
        cases h
    | case2 => trivial
    | case3 c s hrun ih =>
        rw [scan_of_none r hrun] at h
        exact ⟨by rwa [List.append_nil], ih (Scan.found_shift_eq_nil_iff.1 h)⟩
  · intro h
    have hscan := scan_of_skips h
    rw [List.append_nil, scan_nil, Scan.foldr_shift_nil] at hscan
    rw [hscan]

/-- **The first tag of a scan**, with what comes before and after it: nothing before it begins a
tag, and the scan goes on behind it as a scan of its own. -/
theorem scan_eq_cons {s tail : Text} {f : Found α} {fs : List (Found α)}
    (h : r.scan s = ⟨f :: fs, tail⟩) :
    ∃ rest, s = f.before ++ (f.raw ++ rest) ∧ r.Skips f.before (f.raw ++ rest) ∧
      r.run (f.raw ++ rest) = some (f.tag, f.raw, rest) ∧ r.scan rest = ⟨fs, tail⟩ := by
  induction s using Recognizer.scan.induct r generalizing f with
  | case1 s tag raw rest hrun _ ih =>
      rw [scan_of_run r hrun] at h
      simp only [Scan.push, Scan.mk.injEq, List.cons.injEq] at h
      obtain ⟨⟨rfl, rfl⟩, rfl⟩ := h
      have hs : s = raw ++ rest := (r.splits hrun).symm
      exact ⟨rest, hs, trivial, hs ▸ hrun, rfl⟩
  | case2 hrun => simp at h
  | case3 c s hrun ih =>
      rw [scan_of_none r hrun] at h
      -- The character has gone to the first tag of the scan behind it.
      obtain ⟨g, hg, rfl⟩ : ∃ g, r.scan s = ⟨g :: fs, tail⟩ ∧
          f = { g with before := c :: g.before } := by
        generalize r.scan s = t at h
        rcases t with ⟨_ | ⟨g, gs⟩, tail'⟩
        · simp [Scan.shift] at h
        · simp only [Scan.shift, Scan.mk.injEq, List.cons.injEq] at h
          obtain ⟨⟨rfl, rfl⟩, rfl⟩ := h
          exact ⟨g, rfl, rfl⟩
      obtain ⟨rest, hs, hskip, hfound, hrest⟩ := ih hg
      change s = _ at hs
      subst hs
      exact ⟨rest, rfl, ⟨hrun, hskip⟩, hfound, hrest⟩

/-- The tags behind some of the tags of a text are those of the text that follows these. -/
theorem scan_behind {s tail : Text} {fs gs : List (Found α)} (h : r.scan s = ⟨fs ++ gs, tail⟩) :
    r.scan (Found.texts gs ++ tail) = ⟨gs, tail⟩ := by
  induction fs generalizing s with
  | nil =>
      have hs : Found.texts gs ++ tail = s := by rw [← r.text_scan s, h]; rfl
      rw [hs]
      exact h
  | cons f fs ih =>
      obtain ⟨rest, -, -, -, hrest⟩ := scan_eq_cons h
      exact ih hrest

/-- The tags before a tag are those of the text before it, even if this text is cut off there. -/
theorem scan_before (hr : r.Closed) {s tail : Text} {fs gs : List (Found α)} {c : Found α}
    (h : r.scan s = ⟨fs ++ c :: gs, tail⟩) :
    r.scan (Found.texts fs ++ c.before) = ⟨fs, c.before⟩ := by
  induction fs generalizing s with
  | nil =>
      obtain ⟨rest, -, hskip, -, -⟩ := scan_eq_cons h
      have hcut : r.Skips c.before [] := Skips.cut (t := []) hskip hr
      simpa [Scan.foldr_shift_nil] using scan_of_skips hcut
  | cons f fs ih =>
      obtain ⟨rest, -, hskip, hrun, hrest⟩ := scan_eq_cons h
      -- `rest` reaches beyond the cut, so both facts about the first tag are brought back to it.
      have htext : rest = (Found.texts fs ++ c.before) ++ (c.raw ++ (Found.texts gs ++ tail)) := by
        rw [← r.text_scan rest, hrest]
        simp [Scan.text]
      rw [htext, ← List.append_assoc] at hskip
      rw [Found.texts_cons, List.append_assoc, List.append_assoc, scan_of_skips (hskip.cut hr),
        scan_of_run r (hr hrun _), ih hrest, Scan.foldr_shift_push]

/-- A text that is read whole as one tag. -/
def IsSpelling (r : Recognizer α) (tag : α) (raw : Text) : Prop := r.run raw = some (tag, raw, [])

theorem IsSpelling.ne_nil {tag : α} {raw : Text} (h : r.IsSpelling tag raw) : raw ≠ [] :=
  r.nonempty h

/-- What is read as a tag is a spelling of it. -/
theorem isSpelling_of_run (hr : r.Closed) {tag : α} {s raw rest : Text}
    (h : r.run s = some (tag, raw, rest)) : r.IsSpelling tag raw := by
  have hcut := hr h []
  rwa [List.append_nil] at hcut

/-- The scan of a text with a tag in it, in front of which none begins. -/
theorem scan_append_of_isSpelling (hr : r.Closed) {b raw t : Text} {tag : α}
    (htag : r.IsSpelling tag raw) (hskip : r.Skips b (raw ++ t)) :
    r.scan (b ++ (raw ++ t)) = ⟨⟨b, tag, raw⟩ :: (r.scan t).found, (r.scan t).tail⟩ := by
  rw [scan_of_skips hskip, scan_of_run r (hr htag t), Scan.foldr_shift_push]

/-- A tag of a scan, with the scan from this tag on. -/
theorem exists_scan_of_mem {s : Text} {f : Found α} (hf : f ∈ (r.scan s).found) :
    ∃ gs tail, r.scan (Found.texts (f :: gs) ++ tail) = ⟨f :: gs, tail⟩ := by
  obtain ⟨fs, gs, hfs⟩ := List.append_of_mem hf
  have hscan : r.scan s = ⟨fs ++ f :: gs, (r.scan s).tail⟩ := by rw [← hfs]
  exact ⟨gs, (r.scan s).tail, scan_behind hscan⟩

/-- Where no tag is found the whole text remains. -/
theorem scan_eq_of_found_nil {s : Text} (h : (r.scan s).found = []) : r.scan s = ⟨[], s⟩ := by
  have htext := r.text_scan s
  revert h htext
  rcases r.scan s with ⟨found, tail⟩
  rintro rfl rfl
  rfl

/-- There is no tag in the text in front of a tag. -/
theorem scan_between (hr : r.Closed) {s : Text} {f : Found α} (hf : f ∈ (r.scan s).found) :
    r.scan f.before = ⟨[], f.before⟩ := by
  obtain ⟨gs, tail, hscan⟩ := exists_scan_of_mem hf
  rw [← List.nil_append (f :: gs)] at hscan
  exact scan_before hr hscan

/-- There is no tag in the text behind the last one. -/
theorem scan_tail (r : Recognizer α) (s : Text) :
    r.scan (r.scan s).tail = ⟨[], (r.scan s).tail⟩ := by
  have hscan : r.scan s = ⟨(r.scan s).found ++ [], (r.scan s).tail⟩ := by rw [List.append_nil]
  exact scan_behind hscan

/-- Every tag of a scan is read whole from its own text. -/
theorem isSpelling_of_mem_scan (hr : r.Closed) {s : Text} {f : Found α}
    (hf : f ∈ (r.scan s).found) : r.IsSpelling f.tag f.raw := by
  obtain ⟨gs, tail, hscan⟩ := exists_scan_of_mem hf
  obtain ⟨rest, -, -, hrun, -⟩ := scan_eq_cons hscan
  exact isSpelling_of_run hr hrun

end Recognizer

/-! ## Joining two texts -/

/-- What the tags of a scan say. -/
def Scan.tags {α : Type} (s : Scan α) : List α := s.found.map Found.tag

@[simp] theorem Scan.tags_shift {α : Type} (c : Char) (s : Scan α) :
    (s.shift c).tags = s.tags := by
  rcases s with ⟨_ | ⟨f, fs⟩, tail⟩ <;> rfl

@[simp] theorem Scan.tags_push {α : Type} (tag : α) (raw : Text) (s : Scan α) :
    (s.push tag raw).tags = tag :: s.tags := rfl

namespace Recognizer

variable {α : Type} {r : Recognizer α}

/-- Some tag begins in the first text and ends in the second. -/
def Straddles (r : Recognizer α) (a b : Text) : Prop :=
  ∃ front u v back tag, a = front ++ u ∧ b = v ++ back ∧ u ≠ [] ∧ v ≠ [] ∧
    r.IsSpelling tag (u ++ v)

theorem Straddles.of_append {a b : Text} (front : Text) (h : r.Straddles a b) :
    r.Straddles (front ++ a) b := by
  obtain ⟨front', u, v, back, tag, rfl, rfl, hu, hv, htag⟩ := h
  exact ⟨front ++ front', u, v, back, tag, (List.append_assoc ..).symm, rfl, hu, hv, htag⟩

/-- Where no tag begins in the first text alone, one of the joined text straddles. -/
theorem run_append_eq_none (hr : r.Closed) {a b : Text} (ha : a ≠ []) (hnone : r.run a = none)
    (h : ¬r.Straddles a b) : r.run (a ++ b) = none := by
  cases hrun : r.run (a ++ b) with
  | none => rfl
  | some x =>
      obtain ⟨tag, raw, rest⟩ := x
      have hraw := isSpelling_of_run hr hrun
      -- A tag within the first text would be read there alone.
      have hwithin (back : Text) : a ≠ raw ++ back := by
        rintro rfl
        rw [hr hrun back] at hnone
        cases hnone
      rcases List.append_eq_append_iff.1 (r.splits hrun) with ⟨back, hback, -⟩ | ⟨v, rfl, rfl⟩
      · exact absurd hback (hwithin back)
      · have hv : v ≠ [] := fun hv => hwithin [] (by simp [hv])
        exact absurd ⟨[], a, v, rest, tag, rfl, rfl, ha, hv, hraw⟩ h

/-- **Two texts joined have the tags of both**, unless a tag straddles the joint. -/
theorem tags_scan_append (hr : r.Closed) {a b : Text} (h : ¬r.Straddles a b) :
    (r.scan (a ++ b)).tags = (r.scan a).tags ++ (r.scan b).tags := by
  induction a using Recognizer.scan.induct r with
  | case1 a tag raw rest hrun _ ih =>
      have hsplit : a = raw ++ rest := (r.splits hrun).symm
      have hlong := hr hrun (rest ++ b)
      rw [← List.append_assoc, ← hsplit] at hlong
      rw [scan_of_run r hlong, scan_of_run r hrun, Scan.tags_push, Scan.tags_push,
        ih fun hs => h (hsplit ▸ hs.of_append raw)]
      rfl
  | case2 => simp [Scan.tags]
  | case3 c a hrun ih =>
      have hlong := run_append_eq_none hr (List.cons_ne_nil c a) hrun h
      rw [List.cons_append] at hlong ⊢
      rw [scan_of_none r hlong, scan_of_none r hrun, Scan.tags_shift, Scan.tags_shift]
      exact ih fun hs => h (hs.of_append [c])

/-- Where no tag begins in the first text alone, none begins there in the joined text exactly if
none straddles. -/
theorem skips_iff_not_straddles (hr : r.Closed) {a b : Text} (ha : r.Skips a []) :
    r.Skips a b ↔ ¬r.Straddles a b := by
  constructor
  · rintro h ⟨front, u, v, back, tag, rfl, rfl, hu, -, htag⟩
    obtain ⟨c, u, rfl⟩ := List.exists_cons_of_ne_nil hu
    have hnone := (skips_append.1 h).2.1
    have hlong := hr htag back
    rw [List.cons_append, List.cons_append, List.append_assoc, hnone] at hlong
    cases hlong
  · intro h
    induction a with
    | nil => trivial
    | cons c a ih =>
        have hnone : r.run (c :: a) = none := by
          have := ha.1
          rwa [List.append_nil] at this
        exact ⟨run_append_eq_none hr (List.cons_ne_nil c a) hnone h,
          ih ha.2 fun hs => h (hs.of_append [c])⟩

/-- No tag begins in one of the texts and ends in a later one. -/
def Seamless (r : Recognizer α) : List Text → Prop
  | [] => True
  | p :: ps => ¬r.Straddles p ps.flatten ∧ r.Seamless ps

/-- **Texts without tags are joined to one without tags** exactly if no tag comes about at a
joint. -/
theorem found_flatten_eq_nil_iff (hr : r.Closed) {ps : List Text}
    (hps : ∀ p ∈ ps, (r.scan p).found = []) :
    (r.scan ps.flatten).found = [] ↔ r.Seamless ps := by
  rw [found_eq_nil_iff]
  induction ps with
  | nil => exact Iff.rfl
  | cons p ps ih =>
      rw [List.forall_mem_cons, found_eq_nil_iff] at hps
      rw [List.flatten_cons, skips_append, List.append_nil, ih hps.2,
        skips_iff_not_straddles hr hps.1]
      rfl

end Recognizer

end CommentTemplate
