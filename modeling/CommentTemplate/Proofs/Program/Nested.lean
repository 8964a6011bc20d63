import CommentTemplate.Proofs.Program.Joining
import CommentTemplate.Proofs.Render.Script

/-!
# Properly nested nodes

A sequence of nodes is properly nested if its loop markers pair up like brackets, each pair with
one name.  Such a sequence is the flat form of a script, so it renders without a complaint about
its markers.  Merging literals and splitting them around placeholders keep it properly nested.

## Main definitions

* `Nested` — sequences whose markers pair up

## Main statements

* `Nested.exists_script`, `Nested.of_script` — the properly nested sequences are the flat forms of
  scripts
* `nested_finish` — the last two steps of a compilation keep the nesting
-/

namespace CommentTemplate

/-- Sequences of nodes whose loop markers pair up like brackets, with equal names. -/
inductive Nested : List Node → Prop where
  | nil : Nested []
  | literal (text : Text) {nodes : List Node} (h : Nested nodes) :
    Nested (.literal text :: nodes)
  | varRef (name : Text) (function : Option Text) {nodes : List Node} (h : Nested nodes) :
    Nested (.varRef name function :: nodes)
  | loop (block : Text) {body nodes : List Node} (hbody : Nested body) (h : Nested nodes) :
    Nested (.loopOpen block :: (body ++ .loopClose block :: nodes))

namespace Nested

variable {front back nodes : List Node}

/-- A properly nested sequence is the flat form of a script. -/
theorem exists_script (h : Nested nodes) : ∃ t : Script, t.nodes = nodes := by
  induction h with
  | nil => exact ⟨.done, rfl⟩
  | literal text _ ih =>
      obtain ⟨next, rfl⟩ := ih
      exact ⟨.literal text next, rfl⟩
  | varRef name function _ ih =>
      obtain ⟨next, rfl⟩ := ih
      exact ⟨.varRef name function next, rfl⟩
  | loop block _ _ ihBody ih =>
      obtain ⟨body, rfl⟩ := ihBody
      obtain ⟨next, rfl⟩ := ih
      exact ⟨.loop block body next, rfl⟩

/-- The flat form of a script is properly nested. -/
theorem of_script (t : Script) : Nested t.nodes := by
  induction t with
  | done => exact .nil
  | literal text next ih => exact .literal text ih
  | varRef name function next ih => exact .varRef name function ih
  | loop block body next ihBody ihNext => exact .loop block ihBody ihNext

/-- The markers of a properly nested program are never found out of balance. -/
theorem render_ne_unbalancedLoop (h : Nested nodes) (strict : Bool) (b : Bindings)
    (block : Text) : render strict ⟨nodes⟩ b ≠ .error (.unbalancedLoop block) := by
  obtain ⟨t, rfl⟩ := h.exists_script
  exact t.render_ne_unbalancedLoop strict b block

theorem append (hfront : Nested front) (hback : Nested back) : Nested (front ++ back) := by
  induction hfront with
  | nil => exact hback
  | literal text _ ih => exact .literal text ih
  | varRef name function _ ih => exact .varRef name function ih
  | loop block hbody _ _ ih =>
      rw [List.cons_append, List.append_assoc, List.cons_append]
      exact .loop block hbody ih

end Nested

/-! ## Operations that keep the nesting -/

theorem nested_prependLiteral (t : Text) {nodes : List Node} (h : Nested nodes) :
    Nested (prependLiteral t nodes) := by
  by_cases ht : t = []
  · rw [ht, prependLiteral_empty]
    exact h
  · cases h with
    | literal u h => simpa [prependLiteral, ht] using h.literal (t ++ u)
    | nil => simpa [prependLiteral, ht] using Nested.nil.literal t
    | varRef name function h => simpa [prependLiteral, ht] using (h.varRef name function).literal t
    | loop block hbody h => simpa [prependLiteral, ht] using (Nested.loop block hbody h).literal t

theorem nested_joinNodes {front back : List Node} (hfront : Nested front) (hback : Nested back) :
    Nested (joinNodes front back) := by
  induction hfront generalizing back with
  | nil => exact hback
  | literal t _ ih => exact nested_prependLiteral t (ih hback)
  | varRef name function _ ih => exact .varRef name function (ih hback)
  | loop block _ _ ihBody ih =>
      -- What follows the loop is joined behind its closing marker, out of reach of the body.
      rw [joinNodes_loopOpen, joinNodes_append, joinNodes_loopClose, joinNodes_behind rfl]
      exact .loop block (ihBody .nil) (ih hback)

theorem nested_placeholderNodes (t : Text) {nodes : List Node} (h : Nested nodes) :
    Nested (placeholderNodes t nodes) := by
  unfold placeholderNodes scanNodes
  induction (placeholderTag.scan t).found with
  | nil => exact nested_prependLiteral _ h
  | cons f fs ih =>
      rw [List.foldr_cons]
      exact nested_prependLiteral _ (.varRef f.tag.name f.tag.function ih)

theorem nested_expandPlaceholders {nodes : List Node} (h : Nested nodes) :
    Nested (expandPlaceholders nodes) := by
  induction h with
  | nil => exact .nil
  | literal t _ ih => exact nested_placeholderNodes t ih
  | varRef name function _ ih => exact .varRef name function ih
  | loop block _ _ ihBody ih =>
      rw [expandPlaceholders, expandPlaceholders_behind rfl]
      · exact .loop block ihBody ih
      · simp

/-- The last two steps of a compilation keep the nesting. -/
theorem nested_finish {nodes : List Node} (h : Nested nodes) : Nested (finish nodes) :=
  nested_expandPlaceholders (nested_joinNodes h .nil)

end CommentTemplate
