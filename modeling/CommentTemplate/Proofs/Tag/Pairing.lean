import CommentTemplate.Proofs.Tag.Closers

/-!
# The forest of a scan, told by the closers

The forest of a scan is made by a search that goes through the delimiters with a counter.  Here it
is told without a search: which opening delimiter begins the first tree, and which delimiter ends
it, follows from the counts of opening and closing ends alone.

## Main definitions

* `Scan.IsForest` — a forest of scanned delimiters, by which of them close which

## Main statements

* `firstPair_of_closes` — the leftmost opening delimiter with a closer is the first pair
* `Scan.isForest_iff` — the forest of a scan is its only one
-/

namespace CommentTemplate

open Delimiter

variable {skipped inner rest : List (Found Delimiter)} {o c : Found Delimiter}

/-- **The first pair** is an opening delimiter with its closer if no opening one in front of it has
one. -/
theorem firstPair_of_closes (hopening : o.tag.opening = true)
    (hcloses : o.tag.Closes 0 (inner.map Found.tag) c.tag)
    (hskipped : Unclosed (skipped.map Found.tag) ((o :: (inner ++ c :: rest)).map Found.tag)) :
    firstPair (skipped ++ o :: (inner ++ c :: rest)) = some ⟨skipped, o, inner, c, rest⟩ := by
  induction skipped with
  | nil =>
      rw [List.nil_append, firstPair, if_pos hopening, splitAtCloser_eq_some_iff.2 ⟨rfl, hcloses⟩]
  | cons f skipped ih =>
      obtain ⟨hunclosed, hskipped⟩ := hskipped
      rw [List.cons_append, firstPair, ih hskipped]
      by_cases hf : f.tag.opening = true
      · have hnone : splitAtCloser f.tag 0 (skipped ++ o :: (inner ++ c :: rest)) = none :=
          splitAtCloser_eq_none_iff.2 (by simpa using hunclosed hf)
        rw [if_pos hf, hnone]
        rfl
      · rw [if_neg hf]
        rfl

namespace Scan

/-- A forest of scanned delimiters.  It is a leaf if no opening delimiter has a closer.  Otherwise
the leftmost opening delimiter that has one begins the first tree, and this closer ends it; the
delimiters between the two make up the body of the tree, and those behind them what follows. -/
inductive IsForest : Scan Delimiter → Forest → Prop where
  | leaf {s : Scan Delimiter} (h : Unclosed (s.found.map Found.tag) []) : IsForest s (.leaf s.text)
  | tree {skipped inner rest : List (Found Delimiter)} {o c : Found Delimiter} {tail : Text}
    {body after : Forest} (hopening : o.tag.opening = true)
    (hcloses : o.tag.Closes 0 (inner.map Found.tag) c.tag)
    (hskipped : Unclosed (skipped.map Found.tag) ((o :: (inner ++ c :: rest)).map Found.tag))
    (hbody : IsForest ⟨inner, c.before⟩ body) (hafter : IsForest ⟨rest, tail⟩ after) :
    IsForest ⟨skipped ++ o :: (inner ++ c :: rest), tail⟩
      (.tree (Found.texts skipped ++ o.before) o.tag.name o.raw body c.raw after)

/-- The forest of a scan is told by its closers. -/
theorem isForest_forest (s : Scan Delimiter) : s.IsForest s.forest := by
  induction s using Scan.forest.induct with
  | case1 s h =>
      rw [forest_of_none h]
      exact .leaf (firstPair_eq_none_iff.1 h)
  | case2 s p h _ _ ihInner ihRest =>
      obtain ⟨hcloses, hskipped⟩ := closes_of_firstPair h
      have hs : s = ⟨p.skipped ++ p.opener :: (p.inner ++ p.closer :: p.rest), s.tail⟩ := by
        rw [firstPair_spec h]
      rw [forest_of_some h]
      conv => lhs; rw [hs]
      exact .tree (firstPair_ends h).1 hcloses hskipped ihInner ihRest

/-- There is no other forest of a scan. -/
theorem IsForest.eq_forest {s : Scan Delimiter} {f : Forest} (h : s.IsForest f) :
    f = s.forest := by
  induction h with
  | leaf h => rw [forest_of_none (firstPair_eq_none_iff.2 h)]
  | tree hopening hcloses hskipped _ _ ihBody ihAfter =>
      rw [forest_of_some (firstPair_of_closes hopening hcloses hskipped), ihBody, ihAfter]

/-- **The forest of a scan is its only one.** -/
theorem isForest_iff {s : Scan Delimiter} {f : Forest} : s.IsForest f ↔ f = s.forest := by
  refine ⟨IsForest.eq_forest, ?_⟩
  rintro rfl
  exact s.isForest_forest

end Scan

end CommentTemplate
