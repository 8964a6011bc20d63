import Mathlib.Data.List.Basic
import CommentTemplate.Proofs.Tag.Grammar
import CommentTemplate.Proofs.Text.Between
import CommentTemplate.Tag.Locate

/-!
# The tags of a text

A scan reports some texts of a form with their places.  Which ones it has to report is told by the
grammar of the form and the text alone: those that stand one behind the other such that every other
text of the form begins inside one of them.  Only one list of places is like this, and it is the
one that the scan reports.

## Main definitions

* `Locates` — the tags of a language and their places in a text

## Main statements

* `Locates.unique` — the places are determined by the language
* `locates_scan` — a recogniser that reads a language locates its tags
* `LocatedTag.locates_forms` — the tags of all forms

## Design decisions

**Completeness without an order of search.**  `Locates.complete` does not say that the search goes
on behind each tag.  It says which texts are no reason for a tag, those that begin inside an
earlier one, and an attempt that fails after many characters is not among them.
-/

namespace CommentTemplate

variable {α : Type} {L : α → Text → Prop} {s : Text} {offset : Nat}

/-- Tags of a language in the text from a byte on, each with the bytes at which it begins and at
which it is over: they stand one behind the other, and a text of the language that begins inside
none of them is one of them. -/
structure Locates (L : α → Text → Prop) (s : Text) (offset : Nat) (found : List (α × Nat × Nat)) :
    Prop where
  behind : ∀ x ∈ found, offset ≤ x.2.1
  apart : found.Pairwise fun x y => x.2.2 ≤ y.2.1
  spelled : ∀ x ∈ found, x.2.1 < x.2.2 ∧ ∃ raw, s.Between x.2.1 x.2.2 raw ∧ L x.1 raw
  complete : ∀ ⦃tag raw first last⦄, offset ≤ first → s.Between first last raw → L tag raw →
    (∀ x ∈ found, x.2.1 < first → x.2.2 ≤ first) → (tag, first, last) ∈ found

namespace Locates

variable {found found' : List (α × Nat × Nat)} {x y : α × Nat × Nat}

theorem nil_iff : Locates L s offset [] ↔
    ∀ tag raw first last, offset ≤ first → s.Between first last raw → ¬L tag raw := by
  constructor
  · intro h tag raw first last hfirst hraw htag
    exact absurd (h.complete hfirst hraw htag (List.forall_mem_nil _)) List.not_mem_nil
  · intro h
    exact ⟨List.forall_mem_nil _, .nil, List.forall_mem_nil _,
      fun tag raw first last hfirst hraw htag _ => absurd htag (h tag raw first last hfirst hraw)⟩

/-- Behind the first tag are the others. -/
theorem tail (h : Locates L s offset (x :: found)) : Locates L s x.2.2 found := by
  obtain ⟨happart, hfound⟩ := List.pairwise_cons.1 h.apart
  have hx := h.spelled x List.mem_cons_self
  have hoffset := h.behind x List.mem_cons_self
  refine ⟨happart, hfound, fun y hy => h.spelled y (List.mem_cons_of_mem x hy), ?_⟩
  intro tag raw first last hfirst hraw htag hbefore
  have hmem := h.complete (by omega) hraw htag (List.forall_mem_cons.2 ⟨fun _ => hfirst, hbefore⟩)
  rcases List.mem_cons.1 hmem with rfl | hmem
  · exact absurd hx.1 (Nat.not_lt.2 hfirst)
  · exact hmem

/-- No tag begins before the first one. -/
theorem le_of_mem (h : Locates L s offset (x :: found)) : ∀ z ∈ x :: found, x.2.1 ≤ z.2.1 := by
  have hx := (h.spelled x List.mem_cons_self).1
  exact List.forall_mem_cons.2 ⟨Nat.le_refl _, fun z hz =>
    Nat.le_trans (Nat.le_of_lt hx) ((List.pairwise_cons.1 h.apart).1 z hz)⟩

/-- No text of the language begins before the first tag. -/
theorem head_le (h : Locates L s offset (x :: found)) {tag : α} {raw : Text} {first last : Nat}
    (hfirst : offset ≤ first) (hraw : s.Between first last raw) (htag : L tag raw) :
    x.2.1 ≤ first := by
  refine Nat.not_lt.1 fun hlt => ?_
  -- No tag begins before it, so the text is one of the tags.
  have hmem := h.complete hfirst hraw htag fun z hz hbefore =>
    absurd (Nat.lt_of_lt_of_le hlt (h.le_of_mem z hz)) (Nat.lt_asymm hbefore)
  exact Nat.not_le.2 hlt (h.le_of_mem _ hmem)

/-- **There is one list of such tags.** -/
theorem unique (h : Locates L s offset found) (h' : Locates L s offset found') :
    found = found' := by
  induction found generalizing offset found' with
  | nil =>
      cases found' with
      | nil => rfl
      | cons y found' =>
          obtain ⟨-, raw, hraw, htag⟩ := h'.spelled y List.mem_cons_self
          exact absurd htag (nil_iff.1 h _ _ _ _ (h'.behind y List.mem_cons_self) hraw)
  | cons x found ih =>
      obtain ⟨-, raw, hraw, htag⟩ := h.spelled x List.mem_cons_self
      have hoffset := h.behind x List.mem_cons_self
      cases found' with
      | nil => exact absurd htag (nil_iff.1 h' _ _ _ _ hoffset hraw)
      | cons y found' =>
          obtain ⟨hy, raw', hraw', htag'⟩ := h'.spelled y List.mem_cons_self
          have hxy : x.2.1 ≤ y.2.1 := h.head_le (h'.behind y List.mem_cons_self) hraw' htag'
          have hmem : x ∈ y :: found' := h'.complete hoffset hraw htag fun z hz hbefore =>
            absurd (Nat.le_trans hxy (h'.le_of_mem z hz)) (Nat.not_le.2 hbefore)
          rcases List.mem_cons.1 hmem with rfl | hmem
          · rw [ih h.tail h'.tail]
          · -- A later tag would begin behind the first one.
            have hyx := (List.pairwise_cons.1 h'.apart).1 x hmem
            exact absurd (Nat.lt_of_lt_of_le hy hyx) (Nat.not_lt.2 hxy)

theorem eq_iff (h : Locates L s offset found) : found = found' ↔ Locates L s offset found' :=
  ⟨fun heq => heq ▸ h, h.unique⟩

/-- A tag in front of some tags that are behind it. -/
theorem cons {tag : α} {raw : Text} {last : Nat} (h : Locates L s last found)
    (hraw : s.Between offset last raw) (hne : raw ≠ []) (htag : L tag raw)
    (hone : ∀ tag' raw' last', s.Between offset last' raw' → L tag' raw' →
      tag' = tag ∧ last' = last) :
    Locates L s offset ((tag, offset, last) :: found) := by
  have hlt : offset < last := hraw.lt hne
  refine ⟨List.forall_mem_cons.2 ⟨Nat.le_refl _, fun x hx =>
      Nat.le_trans (Nat.le_of_lt hlt) (h.behind x hx)⟩, List.pairwise_cons.2 ⟨h.behind, h.apart⟩,
    List.forall_mem_cons.2 ⟨⟨hlt, raw, hraw, htag⟩, h.spelled⟩, ?_⟩
  intro tag' raw' first' last' hfirst' hraw' htag' hbefore
  obtain ⟨hself, hbefore⟩ := List.forall_mem_cons.1 hbefore
  rcases Nat.eq_or_lt_of_le hfirst' with rfl | hlater
  · obtain ⟨rfl, rfl⟩ := hone _ _ _ hraw' htag'
    exact List.mem_cons_self
  · exact List.mem_cons_of_mem _ (h.complete (hself hlater) hraw' htag' hbefore)

/-- Tags found from a later byte on, if none begins before that byte. -/
theorem of_later {later : Nat} (h : Locates L s later found) (hle : offset ≤ later)
    (hnone : ∀ tag raw first last, offset ≤ first → first < later → s.Between first last raw →
      ¬L tag raw) :
    Locates L s offset found := by
  refine ⟨fun x hx => Nat.le_trans hle (h.behind x hx), h.apart, h.spelled, ?_⟩
  intro tag raw first last hfirst hraw htag hbefore
  rcases Nat.lt_or_ge first later with hlt | hge
  · exact absurd htag (hnone _ _ _ _ hfirst hlt hraw)
  · exact h.complete hge hraw htag hbefore

end Locates

/-- Tags with one more character in front of them begin behind this character. -/
theorem spans_shift (start : Nat) (c : Char) (scan : Scan α) :
    Scan.spans start (scan.shift c).found = Scan.spans (start + c.utf8Size) scan.found := by
  obtain ⟨_ | ⟨f, fs⟩, tail⟩ := scan
  · rfl
  · simp [Scan.shift, Scan.spans, Nat.add_assoc]

section Scan

variable {r : Recognizer α} (hr : r.Reads L fun _ => True) {front back raw : Text} {tag : α}
  {last : Nat}

include hr

/-- A text of the language where the rest of a text begins is read there. -/
theorem run_of_between (h : (front ++ back).Between (Text.utf8Size front) last raw)
    (htag : L tag raw) :
    ∃ rest, r.run back = some (tag, raw, rest) ∧ last = Text.utf8Size (front ++ raw) := by
  obtain ⟨front', rest, heq, hfirst, rfl⟩ := h
  obtain ⟨rfl, rfl⟩ := Text.eq_of_append_eq_of_utf8Size heq hfirst.symm
  exact ⟨rest, (hr trivial).2 ⟨rfl, htag⟩, (Text.utf8Size_append ..).symm⟩

/-- **A scan locates the tags of the language** that a recogniser reads. -/
theorem locates_scan (front back : Text) :
    Locates L (front ++ back) (Text.utf8Size front)
      (Scan.spans (Text.utf8Size front) (r.scan back).found) := by
  induction back using Recognizer.scan.induct r generalizing front with
  | case1 back tag raw rest hrun _ ih =>
      obtain ⟨rfl, htag⟩ := (hr trivial).1 hrun
      have ih := ih (front ++ raw)
      rw [List.append_assoc] at ih
      rw [r.scan_of_run hrun]
      have hraw : (front ++ (raw ++ rest)).Between (Text.utf8Size front)
          (Text.utf8Size (front ++ raw)) raw :=
        ⟨front, rest, rfl, rfl, (Text.utf8Size_append ..).symm⟩
      have := ih.cons hraw (r.nonempty hrun) htag fun tag' raw' last' h' htag' => by
        obtain ⟨rest', hrun', rfl⟩ := run_of_between hr h' htag'
        cases hrun.symm.trans hrun'
        exact ⟨rfl, rfl⟩
      simpa [Scan.push, Scan.spans] using this
  | case2 hrun =>
      rw [r.scan_nil]
      refine Locates.nil_iff.2 fun tag raw first last hfirst hraw htag => ?_
      -- Behind the whole text there is nothing to be read.
      have hend := hraw.le
      rw [List.append_nil] at hend
      obtain rfl : first = Text.utf8Size front :=
        Nat.le_antisymm (Nat.le_trans hend.1 hend.2) hfirst
      obtain ⟨rest, hrun', -⟩ := run_of_between hr hraw htag
      cases hrun.symm.trans hrun'
  | case3 c back hrun ih =>
      have ih := ih (front ++ [c])
      rw [List.append_assoc] at ih
      rw [r.scan_of_none hrun, spans_shift]
      have hle : Text.utf8Size front ≤ Text.utf8Size (front ++ [c]) := by simp
      simpa [wfParam] using ih.of_later hle
        fun tag raw first last hfirst hlt hraw htag => by
          obtain rfl := hraw.of_lt hfirst hlt
          obtain ⟨rest, hrun', -⟩ := run_of_between hr hraw htag
          cases hrun.symm.trans hrun'

end Scan

namespace LocatedTag

/-- An include tag with its path and place. -/
def ofInclude (x : Text × Nat × Nat) : LocatedTag := ⟨.includes, x.1, none, none, x.2.1, x.2.2⟩

theorem ofInclude_injective : ofInclude.Injective := by
  rintro ⟨path, first, last⟩ ⟨path', first', last'⟩ h
  cases h
  rfl

/-- A placeholder with its place. -/
def ofPlaceholder (x : Placeholder × Nat × Nat) : LocatedTag :=
  ⟨.placeholder, x.1.name, x.1.function, none, x.2.1, x.2.2⟩

theorem ofPlaceholder_injective : ofPlaceholder.Injective := by
  rintro ⟨⟨name, function⟩, first, last⟩ ⟨⟨name', function'⟩, first', last'⟩ h
  cases h
  rfl

/-- **The tags of each form** are the leftmost texts of its grammar that do not overlap, with the
names that the grammar gives them: the includes and the placeholders of a text, and the ends of
blocks and of replacement tags in a text from any byte on. -/
theorem locates_forms (front back : Text) :
    let s := front ++ back
    let offset := Text.utf8Size front
    (∀ found, Locates IncludeText s 0 found ↔ includes s = found.map ofInclude) ∧
      (∀ found, Locates PlaceholderText s 0 found ↔ placeholders s = found.map ofPlaceholder) ∧
      (∀ found, Locates (InComment BlockEnd) s offset found ↔
        Scan.spans offset (blockDelimiter.scan back).found = found) ∧
      ∀ found, Locates (InComment ReplaceEnd) s offset found ↔
        Scan.spans offset (replaceDelimiter.scan back).found = found := by
  intro s offset
  refine ⟨fun found => ?_, fun found => ?_, fun found => ?_, fun found => ?_⟩
  · exact (locates_scan reads_includeTag [] s).eq_iff.symm.trans
      (List.map_injective_iff.2 ofInclude_injective).eq_iff.symm
  · exact (locates_scan reads_placeholderTag [] s).eq_iff.symm.trans
      (List.map_injective_iff.2 ofPlaceholder_injective).eq_iff.symm
  · exact (locates_scan reads_blockDelimiter front back).eq_iff.symm
  · exact (locates_scan reads_replaceDelimiter front back).eq_iff.symm

/-- An attempt that fails behind the first keyword does not hide the tag that begins in it. -/
example : includes "<!-- include <!-- Include é --> -->".toList =
    [⟨.includes, "é".toList, none, none, 13, 32⟩] := by
  decide +kernel

end LocatedTag

end CommentTemplate
