import CommentTemplate.Compiler
import CommentTemplate.Proofs.Block.Expansion
import CommentTemplate.Proofs.Outcome

/-!
# What a successful compilation has done

The recursions of the first two stages, one step at a time.  A compilation that succeeds has
resolved the includes, taken out the replacement tags, and written out the forest of the text that
was left.

## Main statements

* `includeText_of_entered`, `extractAt_of_entered` — one step of a stage above the limit
* `compile_eq_ok_iff` — the stages of a successful compilation
* `compiled_eq_of_ok` — its program and its names, from the forest of the text left for the blocks
* `resolveIncludes_of_no_tag`, `extractReplacements_of_no_tag` — stages that find nothing to do
-/

namespace CommentTemplate

/-! ## One step of the stages -/

section Step

variable {loader : Option Loader} {policy : Policy} {depth : Nat} {path s : Text}
  {found : Replacements} {tag : TextPair}

/-- An include tag at the limit gives nothing, with or without an error. -/
theorem includeText_of_refused (hd : policy.limit ≤ depth) :
    includeText loader policy depth path = if policy.strict = true
      then .error (.recursionLimit .includes policy.limit) else .ok [] := by
  rw [includeText]
  split
  · next e h =>
      obtain ⟨-, hs, rfl⟩ := Policy.descend_eq_error_iff.1 h
      rw [if_pos hs]
  · next h =>
      obtain ⟨-, hs⟩ := Policy.descend_eq_truncate_iff.1 h
      rw [hs]
      rfl
  · next h => exact absurd (Policy.descend_eq_enter_iff.1 h) (Nat.not_lt.2 hd)

/-- An include tag above the limit gives its source, the includes in it resolved. -/
theorem includeText_of_entered (hd : depth < policy.limit) :
    includeText loader policy depth path =
      fetch loader policy.strict path >>= fun
        | none => .ok []
        | some text => spliceIncludes (includeText loader policy (depth + 1)) text := by
  rw [includeText]
  split
  · next e h => exact absurd hd (Nat.not_lt.2 (Policy.descend_eq_error_iff.1 h).1)
  · next h => exact absurd hd (Nat.not_lt.2 (Policy.descend_eq_truncate_iff.1 h).1)
  · rcases fetch loader policy.strict path with e | ⟨_ | text⟩ <;> rfl

theorem extractAt_of_none (h : nextReplace s = none) :
    extractAt policy depth found s = .ok (s, found) := by
  rw [extractAt]
  split
  · rfl
  · simp_all

/-- A replacement tag at the limit ends the extraction, with or without an error. -/
theorem extractAt_of_refused (h : nextReplace s = some tag) (hd : policy.limit ≤ depth) :
    extractAt policy depth found s = if policy.strict = true
      then .error (.recursionLimit .replacement policy.limit) else .ok (s, found) := by
  rw [extractAt]
  split
  · simp_all
  · by_cases hs : policy.strict = true <;>
      simp [Policy.descend, Nat.not_lt.2 hd, hs]

/-- A replacement tag above the limit is taken out, those in its content first. -/
theorem extractAt_of_entered (h : nextReplace s = some tag) (hd : depth < policy.limit) :
    extractAt policy depth found s = do
      let (content, found) ← extractAt policy (depth + 1) found tag.body
      let (rest, found) ← extractAt policy depth (found.insert tag.name content) tag.after
      return (tag.before ++ rest, found) := by
  rw [extractAt]
  split
  · simp_all
  · next p hp =>
      obtain rfl : tag = p := Option.some.inj (h.symm.trans hp)
      simp only [Policy.descend_eq_enter_iff.2 hd]

end Step

/-! ## Stages that find nothing to do -/

/-- A text without include tags is resolved already. -/
theorem resolveIncludes_of_no_tag {loader : Option Loader} {policy : Policy} {t : Text}
    (h : includedPaths t = []) : resolveIncludes loader policy t = .ok t := by
  have hfound : (includeTag.scan t).found = [] := List.map_eq_nil_iff.1 h
  rw [resolveIncludes, spliceIncludes, Recognizer.scan_eq_of_found_nil hfound]
  rfl

/-- A text without a complete replacement tag gives no replacements. -/
theorem extractReplacements_of_no_tag {policy : Policy} {t : Text} (h : nextReplace t = none) :
    extractReplacements policy t = .ok (t, Dict.empty) :=
  extractAt_of_none h

/-! ## A successful compilation -/

variable {s : Settings} {loader : Option Loader} {t : Text} {r : Compiled}

/-- The stages of a compilation that succeeds. -/
theorem compile_eq_ok_iff : s.compile loader t = .ok r ↔ ∃ resolved stripped given nodes,
    resolveIncludes loader s.config.policy t = .ok resolved ∧
    extractReplacements s.config.policy resolved = .ok (stripped, given) ∧
    (expandBlocks (s.blockRules given) stripped).outcome = .ok nodes ∧
    r = ⟨⟨expandPlaceholders nodes⟩, (expandBlocks (s.blockRules given) stripped).blocks,
      placeholdersOf nodes⟩ := by
  simp only [Settings.compile, bind_eq_ok_iff, Prod.exists, pure, Except.pure, Except.ok.injEq]
  constructor
  · rintro ⟨resolved, hres, stripped, given, hext, nodes, hnodes, rfl⟩
    exact ⟨resolved, stripped, given, nodes, hres, hext, hnodes, rfl⟩
  · rintro ⟨resolved, stripped, given, nodes, hres, hext, hnodes, rfl⟩
    exact ⟨resolved, hres, stripped, given, hext, nodes, hnodes, rfl⟩

/-- **A compiled template is the forest of the text left for the blocks, written out** under the
rules of the settings and the replacements found in the template. -/
theorem compiled_eq_of_ok (h : s.compile loader t = .ok r) : ∃ resolved stripped given,
    resolveIncludes loader s.config.policy t = .ok resolved ∧
    extractReplacements s.config.policy resolved = .ok (stripped, given) ∧
    r.program.nodes = finish ((blockDelimiter.forest stripped).marks (s.blockRules given) 0) ∧
    r.blocks = (blockDelimiter.forest stripped).recorded (s.blockRules given) 0 := by
  obtain ⟨resolved, stripped, given, nodes, hres, hext, hnodes, rfl⟩ := compile_eq_ok_iff.1 h
  have hexp := expandBlocksAt_eq_of_ok hnodes
  refine ⟨resolved, stripped, given, hres, hext, ?_, ?_⟩
  · rw [expandBlocks, hexp, Except.ok.injEq] at hnodes
    rw [← hnodes]
    rfl
  · rw [expandBlocks, hexp]

end CommentTemplate
