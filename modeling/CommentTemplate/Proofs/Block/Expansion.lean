import CommentTemplate.Block
import CommentTemplate.Proofs.Program.Joining
import CommentTemplate.Proofs.Tag.Pairing

/-!
# The expansion of blocks, read off the forest

The expansion of blocks scans the body of every block anew, and what follows it.  Here it is
computed from one scan: the forest of the text says which blocks there are, and the expansion is
the forest written out, its trees at the limit and below left as text.  The forest itself is told
by which delimiters close which (`Scan.isForest_iff`).

## Main definitions

* `Forest.cut` — the nodes of a forest without replacements and removals
* `Forest.marks` — the nodes of a forest under some rules
* `Forest.recorded` — the names that an expansion records

## Main statements

* `expandBlocksAt_of_shallow` — the expansion where no tree is too deep, or where that is allowed
* `expandBlocksAt_of_deep` — the failure of a strict expansion
* `expandBlocks_eq_forest` — the whole for a text without replacements and removals

## Design decisions

**Merging comes last.**  `cut` and `marks` give every text as a literal of its own, whatever
stands beside it; `joinNodes` merges them afterwards.  The expansion merges at every step, which
comes to the same because joining is associative.
-/

namespace CommentTemplate

/-! ## One step of the expansion -/

section Step

variable {rules : BlockRules} {depth : Nat} {s : Text} {block : TextPair}

theorem expandBlocksAt_of_none (h : nextBlock s = none) :
    expandBlocksAt rules depth s = ⟨[], .ok (literalNodes s)⟩ := by
  rw [expandBlocksAt]
  split
  · rfl
  · simp_all

/-- A block at the limit ends the expansion of its text, with or without an error. -/
theorem expandBlocksAt_of_refused (h : nextBlock s = some block)
    (hd : rules.policy.limit ≤ depth) :
    expandBlocksAt rules depth s = ⟨[], if rules.policy.strict = true
      then .error (.recursionLimit .block rules.policy.limit) else .ok (literalNodes s)⟩ := by
  rw [expandBlocksAt]
  split
  · simp_all
  · by_cases hs : rules.policy.strict = true <;>
      simp [Policy.descend, Nat.not_lt.2 hd, hs]

/-- A block above the limit is expanded, its body first. -/
theorem expandBlocksAt_of_entered (h : nextBlock s = some block)
    (hd : depth < rules.policy.limit) :
    expandBlocksAt rules depth s =
      let inner := expandBlocksAt rules (depth + 1) block.body
      let rest := expandBlocksAt rules depth block.after
      match inner.outcome with
      | .error e => ⟨inner.blocks, .error e⟩
      | .ok body => ⟨inner.blocks ++ (rules.record block.name ++ rest.blocks),
          rest.outcome.map fun after =>
            prependLiteral block.before (joinNodes (rules.nodes block.name body) after)⟩ := by
  rw [expandBlocksAt]
  split
  · simp_all
  · next p hp =>
      obtain rfl : block = p := Option.some.inj (h.symm.trans hp)
      have henter : rules.policy.descend .block depth = .ok .enter :=
        Policy.descend_eq_enter_iff.2 hd
      cases hinner : (expandBlocksAt rules (depth + 1) block.body).outcome with
      | error e => simp only [henter, hinner]
      | ok body => simp only [henter, hinner]

end Step

/-! ## A forest as nodes -/

namespace BlockRules

/-- What stands between the markers of a block: its replacement, or the nodes of its body. -/
def content (rules : BlockRules) (name : Text) (body : List Node) : List Node :=
  match rules.replacements.find? name with
  | some text => [.literal text]
  | none => body

/-- The nodes of a block whose body has the given nodes, nothing merged. -/
def marks (rules : BlockRules) (name : Text) (body : List Node) : List Node :=
  if rules.removals.contains name then []
  else .loopOpen name :: (rules.content name body ++ [.loopClose name])

end BlockRules

namespace Forest

/-- The nodes of a forest at some depth: a loop for every tree above the limit, and text for the
others and for what is between. -/
def cut (limit depth : Nat) : Forest → List Node
  | leaf t => [.literal t]
  | tree before name opener body closer after =>
    if depth < limit then
      .literal before :: .loopOpen name ::
        (body.cut limit (depth + 1) ++ .loopClose name :: after.cut limit depth)
    else [.literal (tree before name opener body closer after).text]

/-- The nodes of a forest at some depth, its blocks replaced and removed as the rules say. -/
def marks (rules : BlockRules) (depth : Nat) : Forest → List Node
  | leaf t => [.literal t]
  | tree before name opener body closer after =>
    if depth < rules.policy.limit then
      .literal before ::
        (rules.marks name (body.marks rules (depth + 1)) ++ after.marks rules depth)
    else [.literal (tree before name opener body closer after).text]

/-- The names recorded for a list of trees with their depths. -/
def recordedOf (rules : BlockRules) (trees : List (Text × Nat)) : List Text :=
  (trees.filter fun t => t.2 < rules.policy.limit && !rules.removals.contains t.1).map Prod.fst

/-- The names that an expansion records: those of the trees above the limit, unless removed. -/
def recorded (rules : BlockRules) (depth : Nat) (f : Forest) : List Text :=
  recordedOf rules (f.postorder depth)

/-! ### Forests at the limit, and forests above it -/

variable {rules : BlockRules} {depth : Nat} {f : Forest}

/-- At the limit the forest is its text. -/
theorem joinNodes_marks_of_le (h : rules.policy.limit ≤ depth) :
    joinNodes (f.marks rules depth) [] = literalNodes f.text := by
  cases f with
  | leaf t => rfl
  | tree before name opener body closer after =>
      rw [marks, if_neg (Nat.not_lt.2 h)]
      rfl

theorem recordedOf_append (rules : BlockRules) (a b : List (Text × Nat)) :
    recordedOf rules (a ++ b) = recordedOf rules a ++ recordedOf rules b := by
  simp [recordedOf]

/-- A tree above the limit is recorded unless it is removed. -/
theorem recordedOf_cons_of_lt (h : depth < rules.policy.limit) (name : Text)
    (trees : List (Text × Nat)) :
    recordedOf rules ((name, depth) :: trees) = rules.record name ++ recordedOf rules trees := by
  by_cases hr : rules.removals.contains name = true <;>
    simp [recordedOf, BlockRules.record, h, hr]

theorem recorded_tree (h : depth < rules.policy.limit) (before name opener : Text) (body : Forest)
    (closer : Text) (after : Forest) :
    (tree before name opener body closer after).recorded rules depth =
      body.recorded rules (depth + 1) ++ (rules.record name ++ after.recorded rules depth) := by
  rw [recorded, postorder_tree, recordedOf_append, recordedOf_cons_of_lt h]
  rfl

theorem recorded_of_le (h : rules.policy.limit ≤ depth) : f.recorded rules depth = [] := by
  rw [recorded, recordedOf, List.map_eq_nil_iff, List.filter_eq_nil_iff]
  intro e he
  have := le_of_mem_postorder he
  simp [Nat.not_lt.2 (Nat.le_trans h this)]

theorem recordedOf_takeWhile_of_le (h : rules.policy.limit ≤ depth) :
    recordedOf rules ((f.postorder depth).takeWhile fun e => e.2 < rules.policy.limit) = [] := by
  cases hf : f.postorder depth with
  | nil => rfl
  | cons e es =>
      have : depth ≤ e.2 := le_of_mem_postorder (hf ▸ List.mem_cons_self)
      rw [List.takeWhile_cons_of_neg (by simpa using Nat.le_trans h this)]
      rfl

end Forest

/-- A run of elements ends at the first one outside the class. -/
theorem takeWhile_append_of_mem {α : Type} {p : α → Bool} {a b : List α} {e : α} (he : e ∈ a)
    (hp : ¬p e) : (a ++ b).takeWhile p = a.takeWhile p := by
  induction a with
  | nil => simp at he
  | cons x a ih =>
      by_cases hx : p x = true
      · rcases List.mem_cons.1 he with rfl | he
        · exact absurd hx hp
        · simp [hx, ih he]
      · simp [hx]

/-! ## The expansion computed from the forest -/

/-- Joining a block in front does not depend on whether its body was merged before. -/
theorem joinNodes_nodes (rules : BlockRules) (name : Text) (body back : List Node) :
    joinNodes (rules.nodes name (joinNodes body [])) back =
      joinNodes (rules.marks name body) back := by
  unfold BlockRules.nodes BlockRules.marks BlockRules.content
  split
  · rfl
  · cases rules.replacements.find? name with
    | none => simp [joinNodes_assoc, joinNodes_append]
    | some text => simp [literalNodes, joinNodes_prependLiteral]

variable {rules : BlockRules} {depth : Nat} {s : Text}

/-- **An expansion that meets no tree it refuses** is its forest written out. -/
theorem expandBlocksAt_of_shallow
    (h : rules.policy.strict = true →
      ∀ e ∈ (blockDelimiter.forest s).postorder depth, e.2 < rules.policy.limit) :
    expandBlocksAt rules depth s = ⟨(blockDelimiter.forest s).recorded rules depth,
      .ok (joinNodes ((blockDelimiter.forest s).marks rules depth) [])⟩ := by
  induction s using nextPair_induction blockDelimiter generalizing depth with
  | leaf s hs =>
      rw [expandBlocksAt_of_none hs, Recognizer.forest_of_nextPair_none hs]
      rfl
  | tree s p hs ihBody ihAfter =>
      have hforest := Recognizer.forest_of_nextPair closed_blockDelimiter hs
      by_cases hd : depth < rules.policy.limit
      · rw [hforest] at h ⊢
        rw [expandBlocksAt_of_entered hs hd,
          ihBody fun hstrict e he => h hstrict e (by simp [he]),
          ihAfter fun hstrict e he => h hstrict e (by simp [he])]
        simp only [Except.map, Expansion.mk.injEq, Except.ok.injEq]
        constructor
        · rw [Forest.recorded_tree hd]
        · rw [Forest.marks, if_pos hd, joinNodes_literal, joinNodes_append, joinNodes_nodes]
      · have hle : rules.policy.limit ≤ depth := Nat.not_lt.1 hd
        have hstrict : rules.policy.strict ≠ true := by
          intro hstrict
          rw [hforest] at h
          exact hd (h hstrict (p.name, depth) (by simp))
        rw [expandBlocksAt_of_refused hs hle, if_neg hstrict, Forest.recorded_of_le hle,
          Forest.joinNodes_marks_of_le hle, Recognizer.text_forest]

/-- **A strict expansion fails at the first tree that is too deep**, and has recorded the trees
that it finished by then. -/
theorem expandBlocksAt_of_deep (hstrict : rules.policy.strict = true)
    (h : ∃ e ∈ (blockDelimiter.forest s).postorder depth, rules.policy.limit ≤ e.2) :
    expandBlocksAt rules depth s =
      ⟨Forest.recordedOf rules (((blockDelimiter.forest s).postorder depth).takeWhile
        fun e => e.2 < rules.policy.limit),
        .error (.recursionLimit .block rules.policy.limit)⟩ := by
  induction s using nextPair_induction blockDelimiter generalizing depth with
  | leaf s hs =>
      rw [Recognizer.forest_of_nextPair_none hs] at h
      simp at h
  | tree s p hs ihBody ihAfter =>
      rw [Recognizer.forest_of_nextPair closed_blockDelimiter hs] at h ⊢
      by_cases hd : depth < rules.policy.limit
      · rw [expandBlocksAt_of_entered hs hd, Forest.postorder_tree]
        by_cases hbody : ∃ e ∈ (blockDelimiter.forest p.body).postorder (depth + 1),
            rules.policy.limit ≤ e.2
        · -- The failure is inside the body, and nothing behind the body is looked at.
          obtain ⟨e, he, hle⟩ := hbody
          rw [ihBody ⟨e, he, hle⟩, takeWhile_append_of_mem he (by simpa using hle)]
        · -- The body is shallow, so the failure is in what follows the block.
          have hshallow : ∀ e ∈ (blockDelimiter.forest p.body).postorder (depth + 1),
              e.2 < rules.policy.limit := fun e he => Nat.not_le.1 fun hle => hbody ⟨e, he, hle⟩
          rw [expandBlocksAt_of_shallow fun _ => hshallow,
            ihAfter (Forest.exists_deep_after hd hshallow h),
            List.takeWhile_append_of_pos (by simpa using hshallow), Forest.recordedOf_append,
            List.takeWhile_cons_of_pos (by simpa using hd), Forest.recordedOf_cons_of_lt hd]
          rfl
      · have hle : rules.policy.limit ≤ depth := Nat.not_lt.1 hd
        rw [expandBlocksAt_of_refused hs hle, if_pos hstrict, Forest.recordedOf_takeWhile_of_le hle]

/-- An expansion that succeeds is its forest written out. -/
theorem expandBlocksAt_eq_of_ok {nodes : List Node}
    (h : (expandBlocksAt rules depth s).outcome = .ok nodes) :
    expandBlocksAt rules depth s = ⟨(blockDelimiter.forest s).recorded rules depth,
      .ok (joinNodes ((blockDelimiter.forest s).marks rules depth) [])⟩ := by
  refine expandBlocksAt_of_shallow fun hstrict e he => Nat.not_le.1 fun hle => ?_
  rw [expandBlocksAt_of_deep hstrict ⟨e, he, hle⟩] at h
  cases h

/-! ## Without replacements and removals -/

/-- Without replacements and removals a forest is written out as it is. -/
theorem Forest.marks_eq_cut (policy : Policy) (depth : Nat) (f : Forest) :
    f.marks ⟨policy, Dict.empty, Dict.empty⟩ depth = f.cut policy.limit depth := by
  induction f generalizing depth with
  | leaf t => rfl
  | tree before name opener body closer after ihBody ihAfter =>
      simp [marks, cut, BlockRules.marks, BlockRules.content, ihBody, ihAfter, Dict.contains]

theorem Forest.recordedOf_plain (policy : Policy) (trees : List (Text × Nat)) :
    recordedOf ⟨policy, Dict.empty, Dict.empty⟩ trees =
      (trees.filter fun t => t.2 < policy.limit).map Prod.fst := by
  simp [recordedOf, Dict.contains]

/-- **Expansion from one scan.**  Without replacements and removals the expansion of a text is the
forest of its delimiters, of which one scan of the text is taken: a loop for every tree above the
limit and text for everything else, and the names of these trees, inner ones first.  Which
delimiters begin and end a tree is told by the counts of opening and closing ends in the list
alone.  If nesting too deep is an error, there is one exactly when the forest has a tree at the
limit or below; the names are then those of the trees finished by that time. -/
theorem expandBlocks_eq_forest (strict : Bool) (limit : Nat) (s : Text) :
    let forest := (blockDelimiter.scan s).forest
    let trees := forest.postorder 0
    (∀ f, (blockDelimiter.scan s).IsForest f ↔ f = forest) ∧
    expandBlocks ⟨⟨strict, limit⟩, Dict.empty, Dict.empty⟩ s =
      if strict = true ∧ ∃ t ∈ trees, limit ≤ t.2 then
        ⟨(trees.takeWhile fun t => t.2 < limit).map Prod.fst, .error (.recursionLimit .block limit)⟩
      else
        ⟨(trees.filter fun t => t.2 < limit).map Prod.fst,
          .ok (joinNodes (forest.cut limit 0) [])⟩ := by
  intro forest trees
  refine ⟨fun f => Scan.isForest_iff, ?_⟩
  split
  · next h =>
      rw [expandBlocks, expandBlocksAt_of_deep h.1 h.2, Forest.recordedOf_plain,
        List.filter_eq_self.2 (List.all_eq_true.1 List.all_takeWhile)]
      rfl
  · next h =>
      have hshallow : strict = true → ∀ t ∈ trees, t.2 < limit := fun hs t ht =>
        Nat.not_le.1 fun hle => h ⟨hs, t, ht, hle⟩
      rw [expandBlocks, expandBlocksAt_of_shallow hshallow, Forest.marks_eq_cut, Forest.recorded,
        Forest.recordedOf_plain]
      rfl

end CommentTemplate
