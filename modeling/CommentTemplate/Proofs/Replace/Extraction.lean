import CommentTemplate.Proofs.Compile.Stages

/-!
# The extraction of replacement tags, read off the forest

The extraction scans the content of every replacement tag anew, and what follows the tag, and it
adds to one dictionary all the way.  Here it is computed from one scan: the forest of the text says
what is left of it, and which contents are added in which order.

## Main definitions

* `Forest.outside` — the text of a forest without its trees
* `Forest.stripped` — the text without the trees above the limit
* `Forest.contents` — the names of the trees above the limit with what is left of their bodies

## Main statements

* `extractAt_of_shallow` — the extraction where no tree is too deep, or where that is allowed
* `extractAt_of_deep` — the failure of a strict extraction
-/

namespace CommentTemplate

namespace Forest

/-- The text without the trees. -/
def outside : Forest → Text
  | leaf t => t
  | tree before _ _ _ _ after => before ++ after.outside

/-- The text without the trees, for a forest above the limit. -/
def stripped (limit depth : Nat) (f : Forest) : Text :=
  if depth < limit then f.outside else f.text

/-- The names of the trees above the limit with what is left of their bodies, the trees inside a
tree before it. -/
def contents (limit depth : Nat) : Forest → List (Text × Text)
  | leaf _ => []
  | tree _ name _ body _ after =>
    if depth < limit then
      body.contents limit (depth + 1) ++
        (name, body.stripped limit (depth + 1)) :: after.contents limit depth
    else []

variable {limit depth : Nat} {f : Forest}

theorem stripped_of_lt (h : depth < limit) : f.stripped limit depth = f.outside := if_pos h

theorem stripped_of_le (h : limit ≤ depth) : f.stripped limit depth = f.text :=
  if_neg (Nat.not_lt.2 h)

@[simp] theorem stripped_leaf (limit depth : Nat) (t : Text) :
    (leaf t).stripped limit depth = t :=
  ite_self t

/-- Without trees at the limit and below nothing stays of the trees. -/
theorem stripped_of_shallow (h : ∀ e ∈ f.postorder depth, e.2 < limit) :
    f.stripped limit depth = f.outside := by
  cases f with
  | leaf t => exact stripped_leaf limit depth t
  | tree before name opener body closer after => exact stripped_of_lt (h (name, depth) (by simp))

theorem contents_of_le (h : limit ≤ depth) : f.contents limit depth = [] := by
  cases f with
  | leaf t => rfl
  | tree before name opener body closer after => rw [contents, if_neg (Nat.not_lt.2 h)]

end Forest

variable {policy : Policy} {depth : Nat} {found : Replacements} {s : Text}

/-- **An extraction that meets no tree it refuses** takes the trees out of the text, and adds their
contents one after the other. -/
theorem extractAt_of_shallow
    (h : policy.strict = true →
      ∀ e ∈ (replaceDelimiter.forest s).postorder depth, e.2 < policy.limit) :
    extractAt policy depth found s = .ok ((replaceDelimiter.forest s).stripped policy.limit depth,
      found.insertAll ((replaceDelimiter.forest s).contents policy.limit depth)) := by
  induction s using nextPair_induction replaceDelimiter generalizing depth found with
  | leaf s hs =>
      rw [extractAt_of_none hs, Recognizer.forest_of_nextPair_none hs, Forest.stripped_leaf]
      rfl
  | tree s p hs ihBody ihAfter =>
      have hforest := Recognizer.forest_of_nextPair closed_replaceDelimiter hs
      by_cases hd : depth < policy.limit
      · rw [hforest] at h ⊢
        rw [extractAt_of_entered hs hd, ihBody fun hstrict e he => h hstrict e (by simp [he])]
        simp only [bind, Except.bind]
        rw [ihAfter fun hstrict e he => h hstrict e (by simp [he])]
        simp [pure, Except.pure, Forest.stripped_of_lt hd, Forest.outside, Forest.contents, hd,
          Dict.insertAll]
      · have hle : policy.limit ≤ depth := Nat.not_lt.1 hd
        have hstrict : policy.strict ≠ true := by
          intro hstrict
          rw [hforest] at h
          exact hd (h hstrict (p.name, depth) (by simp))
        rw [extractAt_of_refused hs hle, if_neg hstrict, Forest.contents_of_le hle,
          Forest.stripped_of_le hle, Recognizer.text_forest]
        rfl

/-- **A strict extraction fails when a tree is too deep.** -/
theorem extractAt_of_deep (hstrict : policy.strict = true)
    (h : ∃ e ∈ (replaceDelimiter.forest s).postorder depth, policy.limit ≤ e.2) :
    extractAt policy depth found s = .error (.recursionLimit .replacement policy.limit) := by
  induction s using nextPair_induction replaceDelimiter generalizing depth found with
  | leaf s hs =>
      rw [Recognizer.forest_of_nextPair_none hs] at h
      simp at h
  | tree s p hs ihBody ihAfter =>
      by_cases hd : depth < policy.limit
      · rw [Recognizer.forest_of_nextPair closed_replaceDelimiter hs] at h
        rw [extractAt_of_entered hs hd]
        by_cases hbody : ∃ e ∈ (replaceDelimiter.forest p.body).postorder (depth + 1),
            policy.limit ≤ e.2
        · rw [ihBody hbody]
          rfl
        · -- The body is shallow, so the failure is in what follows the tag.
          have hshallow : ∀ e ∈ (replaceDelimiter.forest p.body).postorder (depth + 1),
              e.2 < policy.limit := fun e he => Nat.not_le.1 fun hle => hbody ⟨e, he, hle⟩
          rw [extractAt_of_shallow fun _ => hshallow]
          simp only [bind, Except.bind]
          rw [ihAfter (Forest.exists_deep_after hd hshallow h)]
      · rw [extractAt_of_refused hs (Nat.not_lt.1 hd), if_pos hstrict]

/-- A strict extraction that succeeds has met no tree at the limit or below. -/
theorem shallow_of_extractAt (hstrict : policy.strict = true) {r : Text × Replacements}
    (h : extractAt policy depth found s = .ok r) :
    ∀ e ∈ (replaceDelimiter.forest s).postorder depth, e.2 < policy.limit := by
  intro e he
  refine Nat.not_le.1 fun hle => ?_
  rw [extractAt_of_deep hstrict ⟨e, he, hle⟩] at h
  cases h

end CommentTemplate
