import CommentTemplate.Proofs.Tag.Grammar

/-!
# The forest of a scan

The paired tags of a text form a forest: the first tag that is complete, with the forest of the
delimiters between its ends, and then the forest of the delimiters after it.  The forest is made
from one scan.  The expansions of this library look for the first pair, cut out the text between
its ends and the text after it, and scan both anew; `forest_of_nextPair` says that they meet the
same tags.

## Main definitions

* `Forest` — a text cut into its complete tags, those inside them, and the text in between
* `Scan.forest`, `Recognizer.forest` — the forest of a scan, and of the scan of a text
* `Forest.postorder` — the names of the tags with their depths, inner tags first

## Main statements

* `text_forest` — a forest keeps the text
* `nextPair_induction` — induction over the complete tags of a text
* `forest_of_nextPair` — cutting a text at its first pair cuts its forest at the first tree

## Design decisions

**One type for trees and their sequence.**  A forest is its first tree, with the text before it
and the forest after it, so an induction has one hypothesis for the body of the tree and one for
what follows.  Only the last piece is a text alone.
-/

namespace CommentTemplate

/-- A text cut into its complete tags and the text between them. -/
inductive Forest where
  /-- Text without a complete tag. -/
  | leaf (text : Text)
  /-- Text, the first complete tag with the forest of its body, and the forest of what follows. -/
  | tree (before name opener : Text) (body : Forest) (closer : Text) (after : Forest)
deriving DecidableEq, Repr

namespace Forest

/-- The text that a forest was cut from. -/
def text : Forest → Text
  | leaf t => t
  | tree before _ opener body closer after =>
    before ++ (opener ++ (body.text ++ (closer ++ after.text)))

/-- The names of the trees with their depths, the trees inside a tree before it. -/
def postorder (depth : Nat) : Forest → List (Text × Nat)
  | leaf _ => []
  | tree _ name _ body _ after =>
    body.postorder (depth + 1) ++ (name, depth) :: after.postorder depth

@[simp] theorem text_leaf (t : Text) : (leaf t).text = t := rfl

@[simp] theorem text_tree (before name opener : Text) (body : Forest) (closer : Text)
    (after : Forest) : (tree before name opener body closer after).text =
      before ++ (opener ++ (body.text ++ (closer ++ after.text))) := rfl

@[simp] theorem postorder_leaf (depth : Nat) (t : Text) : (leaf t).postorder depth = [] := rfl

@[simp] theorem postorder_tree (depth : Nat) (before name opener : Text) (body : Forest)
    (closer : Text) (after : Forest) :
    (tree before name opener body closer after).postorder depth =
      body.postorder (depth + 1) ++ (name, depth) :: after.postorder depth := rfl

/-- No tree is less deep than the forest it stands in. -/
theorem le_of_mem_postorder {f : Forest} {depth : Nat} {e : Text × Nat}
    (he : e ∈ f.postorder depth) : depth ≤ e.2 := by
  induction f generalizing depth with
  | leaf t => simp at he
  | tree before name opener body closer after ihBody ihAfter =>
      rcases List.mem_append.1 he with he | he
      · exact Nat.le_trans (Nat.le_succ depth) (ihBody he)
      · rcases List.mem_cons.1 he with rfl | he
        · exact Nat.le_refl depth
        · exact ihAfter he

/-- If the first tree and those inside it are above a limit, a tree at the limit or below stands
behind the first one. -/
theorem exists_deep_after {before name opener closer : Text} {body after : Forest}
    {limit depth : Nat} (hd : depth < limit) (hbody : ∀ e ∈ body.postorder (depth + 1), e.2 < limit)
    (h : ∃ e ∈ (tree before name opener body closer after).postorder depth, limit ≤ e.2) :
    ∃ e ∈ after.postorder depth, limit ≤ e.2 := by
  obtain ⟨e, he, hle⟩ := h
  rw [postorder_tree, List.mem_append, List.mem_cons] at he
  rcases he with he | rfl | he
  · exact absurd (hbody e he) (Nat.not_lt.2 hle)
  · exact absurd hd (Nat.not_lt.2 hle)
  · exact ⟨e, he, hle⟩

end Forest

/-- The forest of scanned delimiters.  The first opener that has a closer opens the first tree;
the delimiters before it are text. -/
def Scan.forest (s : Scan Delimiter) : Forest :=
  match h : firstPair s.found with
  | none => .leaf s.text
  | some p =>
    have : p.inner.length < s.found.length := by rw [← firstPair_spec h]; simp; omega
    have : p.rest.length < s.found.length := by rw [← firstPair_spec h]; simp; omega
    .tree (Found.texts p.skipped ++ p.opener.before) p.opener.tag.name p.opener.raw
      (Scan.forest ⟨p.inner, p.closer.before⟩) p.closer.raw (Scan.forest ⟨p.rest, s.tail⟩)
termination_by s.found.length

namespace Scan

theorem forest_of_none {s : Scan Delimiter} (h : firstPair s.found = none) :
    s.forest = .leaf s.text := by
  rw [Scan.forest]
  split
  · rfl
  · simp_all

theorem forest_of_some {s : Scan Delimiter} {p : DelimiterPair}
    (h : firstPair s.found = some p) :
    s.forest = .tree (Found.texts p.skipped ++ p.opener.before) p.opener.tag.name p.opener.raw
      (Scan.forest ⟨p.inner, p.closer.before⟩) p.closer.raw (Scan.forest ⟨p.rest, s.tail⟩) := by
  rw [Scan.forest]
  split
  · simp_all
  · simp_all

/-- A forest is a cut of the scanned text. -/
@[simp] theorem text_forest (s : Scan Delimiter) : s.forest.text = s.text := by
  induction s using Scan.forest.induct with
  | case1 s h => rw [forest_of_none h, Forest.text_leaf]
  | case2 s p h _ _ ihInner ihRest =>
      rw [forest_of_some h, Forest.text_tree, ihInner, ihRest, text, text, text,
        ← firstPair_spec h]
      simp

end Scan

/-- Induction over the complete tags of a text: what holds of the body of the first tag and of the
text after it holds of the whole. -/
@[elab_as_elim] theorem nextPair_induction (r : Recognizer Delimiter) {motive : Text → Prop}
    (leaf : ∀ s, nextPair r s = none → motive s)
    (tree : ∀ s p, nextPair r s = some p → motive p.body → motive p.after → motive s)
    (s : Text) : motive s := by
  induction hn : s.length using Nat.strongRecOn generalizing s with
  | ind n ih =>
      subst hn
      cases h : nextPair r s with
      | none => exact leaf s h
      | some p =>
          exact tree s p h (ih _ (nextPair_body_lt h) _ rfl) (ih _ (nextPair_after_lt h) _ rfl)

namespace Recognizer

variable {r : Recognizer Delimiter}

/-- The forest of the tags of a text, from one scan of it. -/
def forest (r : Recognizer Delimiter) (s : Text) : Forest := (r.scan s).forest

/-- The forest of a text is a cut of it. -/
@[simp] theorem text_forest (r : Recognizer Delimiter) (s : Text) : (r.forest s).text = s := by
  rw [forest, Scan.text_forest, text_scan]

/-- A text without a complete tag is a leaf. -/
theorem forest_of_nextPair_none {s : Text} (h : nextPair r s = none) : r.forest s = .leaf s := by
  rw [nextPair, Option.map_eq_none_iff] at h
  rw [forest, Scan.forest_of_none h, text_scan]

/-- The texts around and inside the first pair have the delimiters that the pair is cut from. -/
theorem scan_of_firstPair (hr : r.Closed) {s : Text} {q : DelimiterPair}
    (h : firstPair (r.scan s).found = some q) :
    let p := q.toText (r.scan s).tail
    r.scan p.before = ⟨q.skipped, q.opener.before⟩ ∧ r.scan p.body = ⟨q.inner, q.closer.before⟩ ∧
      r.scan p.after = ⟨q.rest, (r.scan s).tail⟩ := by
  have hscan : r.scan s =
      ⟨q.skipped ++ q.opener :: (q.inner ++ q.closer :: q.rest), (r.scan s).tail⟩ := by
    rw [firstPair_spec h]
  have hbefore := scan_before hr hscan
  -- What follows the opener is scanned first; the body ends in front of a tag of that scan.
  rw [List.append_cons] at hscan
  have hinner := scan_behind hscan
  have hbody := scan_before hr hinner
  rw [List.append_cons] at hinner
  exact ⟨hbefore, hbody, scan_behind hinner⟩

/-- **Scanning again changes nothing**: the forests of the body of the first pair and of what
follows it, each from a scan of its own, are the parts of the forest of the whole. -/
theorem forest_of_nextPair (hr : r.Closed) {s : Text} {p : TextPair} (h : nextPair r s = some p) :
    r.forest s =
      .tree p.before p.name p.opener (r.forest p.body) p.closer (r.forest p.after) := by
  obtain ⟨q, hq, rfl⟩ := Option.map_eq_some_iff.1 h
  obtain ⟨-, hbody, hafter⟩ := scan_of_firstPair hr hq
  rw [forest, Scan.forest_of_some hq, forest, forest, hbody, hafter]
  rfl

/-- Of two crossed blocks the one that opens first is a tree, and the other one is text. -/
example : (blockDelimiter.forest
    "<!-- [a] --><!-- [b] --><!-- [/a] --><!-- [/b] --><!-- [a] --><!-- [/a] -->".toList).postorder
      0 = [("a".toList, 0), ("a".toList, 0)] := by decide +kernel

end Recognizer

end CommentTemplate
