import CommentTemplate.Proofs.Block.Expansion
import CommentTemplate.Proofs.Render.Interpreter
import CommentTemplate.Proofs.Render.Semantics

/-!
# Replacements and removals after the expansion

Replacements and removals take part in the expansion of blocks while it goes down into bodies.
The result is as if they came afterwards: expand the text without any, take the loops as a tree,
rewrite the tree from the outside in, and merge the literals that came to stand side by side.

## Main definitions

* `Script.rewrite` — a tree with loops removed and bodies replaced
* `Script.join` — a tree with its literals merged
* `Forest.script` — a forest as a tree, nothing merged

## Main statements

* `joinNodes_rewrite_join` — merging before the rewriting makes no difference after it
* `joinNodes_rewrite_script` — the rewritten tree of a forest is the forest under the rules
* `markers_rewrite_congr` — the markers know of the replacements only whether there is one
* `expandBlocks_eq_rewrite` — an expansion under rules is the plain one, rewritten

## Design decisions

**Equal after merging.**  A plain expansion has merged its literals already, so its tree is not the
tree of the forest but that tree merged.  All comparisons are therefore made behind `joinNodes`,
in front of any nodes that follow, and the induction on a tree goes through.
-/

namespace CommentTemplate

/-! ## Rewriting a tree -/

namespace Script

/-- A text as a script: a single literal, or nothing if the text is empty. -/
def ofText (text : Text) : Script := if text = [] then done else literal text done

/-- A script with its loops rewritten: a removed one disappears with its body, one with a
replacement gets that as its body, and the body of any other is rewritten in turn. -/
def rewrite (replacements : Replacements) (removals : NameSet) : Script → Script
  | done => done
  | literal text next => literal text (next.rewrite replacements removals)
  | varRef name function next => varRef name function (next.rewrite replacements removals)
  | loop block body next =>
    if removals.contains block then next.rewrite replacements removals
    else
      let body := match replacements.find? block with
        | some text => ofText text
        | none => body.rewrite replacements removals
      loop block body (next.rewrite replacements removals)

section Rewrite

variable {replacements : Replacements} {removals : NameSet} {block : Text}

theorem rewrite_of_removed (h : removals.contains block = true) (body next : Script) :
    (loop block body next).rewrite replacements removals = next.rewrite replacements removals := by
  rw [rewrite, if_pos h]

theorem rewrite_of_replaced (h : removals.contains block = false) {text : Text}
    (ht : replacements.find? block = some text) (body next : Script) :
    (loop block body next).rewrite replacements removals =
      loop block (ofText text) (next.rewrite replacements removals) := by
  rw [rewrite, if_neg (by simp [h]), ht]

theorem rewrite_of_kept (h : removals.contains block = false)
    (ht : replacements.find? block = none) (body next : Script) :
    (loop block body next).rewrite replacements removals =
      loop block (body.rewrite replacements removals) (next.rewrite replacements removals) := by
  rw [rewrite, if_neg (by simp [h]), ht]

end Rewrite

theorem nodes_ofText (text : Text) : (ofText text).nodes = literalNodes text := by
  unfold ofText
  split
  · next h => rw [h]; rfl
  · next h => simp [literalNodes, prependLiteral, h, nodes]

/-! ## Merging the literals of a tree -/

/-- A script with its literals merged and the empty ones left out. -/
def join : Script → Script
  | done => done
  | literal text next => next.join.prepend text
  | varRef name function next => varRef name function next.join
  | loop block body next => loop block body.join next.join

/-- The literals of a tree are merged as those of its flat form are. -/
theorem nodes_join (t : Script) : t.join.nodes = joinNodes t.nodes [] := by
  induction t with
  | done => rfl
  | literal text next ih => rw [join, nodes_prepend, ih, nodes, joinNodes_literal]
  | varRef name function next ih => rw [join, nodes, ih, nodes, joinNodes_varRef]
  | loop block body next ihBody ihNext =>
      rw [join, nodes, ihBody, ihNext, nodes, joinNodes_loopOpen, joinNodes_append,
        joinNodes_loopClose, joinNodes_behind rfl]

end Script

/-- What is joined in front of a loop's end, and of what follows it. -/
theorem joinNodes_loop (block : Text) (body next : Script) (back : List Node) :
    joinNodes (Script.loop block body next).nodes back =
      .loopOpen block :: joinNodes body.nodes (.loopClose block :: joinNodes next.nodes back) := by
  rw [Script.nodes, joinNodes_loopOpen, joinNodes_append, joinNodes_loopClose]

section Joined

variable (replacements : Replacements) (removals : NameSet)

/-- Text in front of a tree is text in front of the rewritten tree. -/
theorem joinNodes_rewrite_prepend (text : Text) (t : Script) (back : List Node) :
    joinNodes ((t.prepend text).rewrite replacements removals).nodes back =
      prependLiteral text (joinNodes (t.rewrite replacements removals).nodes back) := by
  by_cases ht : text = []
  · have hsame : t.prepend text = t := by cases t <;> simp [Script.prepend, ht]
    rw [hsame, ht, prependLiteral_empty]
  · cases t with
    | literal u next =>
        rw [Script.prepend, if_neg ht, Script.rewrite, Script.nodes, joinNodes_literal,
          prependLiteral_append, Script.rewrite, Script.nodes, joinNodes_literal]
    | done | varRef | loop =>
        simp only [Script.prepend, if_neg ht]
        rfl

/-- **Merging before the rewriting makes no difference after it.** -/
theorem joinNodes_rewrite_join (t : Script) (back : List Node) :
    joinNodes (t.join.rewrite replacements removals).nodes back =
      joinNodes (t.rewrite replacements removals).nodes back := by
  induction t generalizing back with
  | done => rfl
  | literal text next ih =>
      rw [Script.join, joinNodes_rewrite_prepend, ih, Script.rewrite, Script.nodes,
        joinNodes_literal]
  | varRef name function next ih =>
      rw [Script.join, Script.rewrite, Script.nodes, joinNodes_varRef, ih, Script.rewrite,
        Script.nodes, joinNodes_varRef]
  | loop block body next ihBody ihNext =>
      rw [Script.join]
      cases hremoved : removals.contains block with
      | true => rw [Script.rewrite_of_removed hremoved, Script.rewrite_of_removed hremoved, ihNext]
      | false =>
          cases hreplaced : replacements.find? block with
          | some text =>
              rw [Script.rewrite_of_replaced hremoved hreplaced,
                Script.rewrite_of_replaced hremoved hreplaced, joinNodes_loop, joinNodes_loop,
                ihNext]
          | none =>
              rw [Script.rewrite_of_kept hremoved hreplaced,
                Script.rewrite_of_kept hremoved hreplaced, joinNodes_loop, joinNodes_loop,
                ihBody, ihNext]

end Joined

/-! ## The tree of a forest -/

/-- A forest at some depth as a script: a loop for every tree above the limit, and text for the
others and for what is between. -/
def Forest.script (limit depth : Nat) : Forest → Script
  | leaf t => .literal t .done
  | tree before name opener body closer after =>
    if depth < limit then
      .literal before (.loop name (body.script limit (depth + 1)) (after.script limit depth))
    else .literal (tree before name opener body closer after).text .done

namespace Forest

/-- **The rewritten tree of a forest is the forest under the rules**, once literals are merged. -/
theorem joinNodes_rewrite_script (rules : BlockRules) (depth : Nat) (f : Forest)
    (back : List Node) :
    joinNodes ((f.script rules.policy.limit depth).rewrite rules.replacements rules.removals).nodes
      back = joinNodes (f.marks rules depth) back := by
  induction f generalizing depth back with
  | leaf t => rfl
  | tree before name opener body closer after ihBody ihAfter =>
      rw [script, marks]
      split
      · rw [Script.rewrite, Script.nodes, joinNodes_literal, joinNodes_literal, joinNodes_append,
          BlockRules.marks, BlockRules.content, ← ihAfter]
        cases hremoved : rules.removals.contains name with
        | true => rw [Script.rewrite_of_removed hremoved]; rfl
        | false =>
            cases hreplaced : rules.replacements.find? name with
            | some text =>
                rw [Script.rewrite_of_replaced hremoved hreplaced, joinNodes_loop,
                  Script.nodes_ofText, literalNodes, joinNodes_prependLiteral]
                rfl
            | none =>
                rw [Script.rewrite_of_kept hremoved hreplaced, joinNodes_loop, ihBody]
                simp [joinNodes_append]
      · rfl

end Forest

/-! ## Markers of a rewritten tree -/

theorem markers_loop (block : Text) (body next : Script) :
    markers (Script.loop block body next).nodes =
      .loopOpen block :: (markers body.nodes ++ .loopClose block :: markers next.nodes) := by
  rw [Script.nodes, markers, List.filter_cons_of_pos rfl, List.filter_append,
    List.filter_cons_of_pos rfl]
  rfl

/-- A replacement has no markers. -/
theorem markers_ofText (text : Text) : markers (Script.ofText text).nodes = [] := by
  rw [Script.nodes_ofText, literalNodes, markers_prependLiteral]
  rfl

/-- **The markers know of the replacements only whether there is one.** -/
theorem markers_rewrite_congr {replacements replacements' : Replacements}
    (h : ∀ name, replacements'.contains name = replacements.contains name) (removals : NameSet)
    (t : Script) : markers (t.rewrite replacements' removals).nodes =
      markers (t.rewrite replacements removals).nodes := by
  induction t with
  | done => rfl
  | literal text next ih | varRef name function next ih => exact ih
  | loop block body next ihBody ihNext =>
      cases hremoved : removals.contains block with
      | true => rw [Script.rewrite_of_removed hremoved, Script.rewrite_of_removed hremoved, ihNext]
      | false =>
          have hblock := h block
          simp only [Dict.contains] at hblock
          cases hreplaced : replacements.find? block with
          | some text =>
              rw [hreplaced, Option.isSome_some, Option.isSome_iff_exists] at hblock
              obtain ⟨text', hreplaced'⟩ := hblock
              rw [Script.rewrite_of_replaced hremoved hreplaced,
                Script.rewrite_of_replaced hremoved hreplaced', markers_loop, markers_loop,
                markers_ofText, markers_ofText, ihNext]
          | none =>
              rw [hreplaced, Option.isSome_none, Option.isSome_eq_false_iff,
                Option.isNone_iff_eq_none] at hblock
              rw [Script.rewrite_of_kept hremoved hreplaced,
                Script.rewrite_of_kept hremoved hblock, markers_loop, markers_loop, ihBody,
                ihNext]

/-- A replacement for a removed block makes no difference. -/
theorem Script.rewrite_congr {replacements replacements' : Replacements} {removals : NameSet}
    (h : ∀ name, removals.contains name = false →
      replacements'.find? name = replacements.find? name) (t : Script) :
    t.rewrite replacements' removals = t.rewrite replacements removals := by
  induction t with
  | done => rfl
  | literal text next ih | varRef name function next ih => rw [rewrite, rewrite, ih]
  | loop block body next ihBody ihNext =>
      rw [rewrite, rewrite, ihBody, ihNext]
      split
      · rfl
      · next hkept => rw [h block (Bool.not_eq_true _ ▸ hkept)]

/-! ## Expansions under rules -/

/-- The names recorded under some rules are those recorded without, less the removed ones. -/
theorem Forest.recordedOf_eq_filter (policy : Policy) (replacements : Replacements)
    (removals : NameSet) (trees : List (Text × Nat)) :
    recordedOf ⟨policy, replacements, removals⟩ trees =
      (recordedOf ⟨policy, Dict.empty, Dict.empty⟩ trees).filter fun name =>
        !removals.contains name := by
  rw [recordedOf_plain, recordedOf, List.filter_map, List.filter_filter]
  refine congrArg (List.map Prod.fst) (List.filter_congr fun t _ => ?_)
  exact Bool.and_comm _ _

/-- **Under one policy all expansions of a text go the same way**: all fail after the same trees, or
all are one tree rewritten. -/
theorem expandBlocks_cases (policy : Policy) (s : Text) :
    (∃ trees, ∀ replacements removals, expandBlocks ⟨policy, replacements, removals⟩ s =
      ⟨Forest.recordedOf ⟨policy, replacements, removals⟩ trees,
        .error (.recursionLimit .block policy.limit)⟩) ∨
    ∃ (trees : List (Text × Nat)) (t : Script), joinNodes t.nodes [] = t.nodes ∧
      ∀ replacements removals, expandBlocks ⟨policy, replacements, removals⟩ s =
        ⟨Forest.recordedOf ⟨policy, replacements, removals⟩ trees,
          .ok (joinNodes (t.rewrite replacements removals).nodes [])⟩ := by
  let trees := (blockDelimiter.forest s).postorder 0
  by_cases hdeep : policy.strict = true ∧ ∃ e ∈ trees, policy.limit ≤ e.2
  · refine .inl ⟨trees.takeWhile fun e => e.2 < policy.limit, fun replacements removals => ?_⟩
    let rules : BlockRules := ⟨policy, replacements, removals⟩
    have hstrict : rules.policy.strict = true := hdeep.1
    exact expandBlocksAt_of_deep hstrict hdeep.2
  · have hshallow (hstrict : policy.strict = true) : ∀ e ∈ trees, e.2 < policy.limit :=
      fun e he => Nat.not_le.1 fun hle => hdeep ⟨hstrict, e, he, hle⟩
    refine .inr ⟨trees, ((blockDelimiter.forest s).script policy.limit 0).join, ?_,
      fun replacements removals => ?_⟩
    · rw [Script.nodes_join, joinNodes_assoc, joinNodes_nil]
    · rw [expandBlocks, expandBlocksAt_of_shallow hshallow, joinNodes_rewrite_join,
        ← Forest.joinNodes_rewrite_script]
      rfl

/-- Without any rules a tree is rewritten to itself. -/
theorem Script.rewrite_empty (t : Script) : t.rewrite Dict.empty Dict.empty = t := by
  induction t with
  | done => rfl
  | literal text next ih | varRef name function next ih => rw [rewrite, ih]
  | loop block body next ihBody ihNext => rw [rewrite_of_kept rfl rfl, ihBody, ihNext]

/-- **Replacements and removals come after the expansion.**  An expansion under rules fails exactly
if the one without does, and in the same way.  Otherwise the nodes of the one without are the flat
form of exactly one tree, and those of the other are that tree rewritten, with neighbouring literals
merged.  The blocks are those recorded without the rules, less the removed ones.  A replacement for
a removed block makes no difference, and what a replacement says makes none for the markers and
blocks. -/
theorem expandBlocks_eq_rewrite (policy : Policy) (replacements : Replacements)
    (removals : NameSet) (s : Text) :
    let plain := expandBlocks ⟨policy, Dict.empty, Dict.empty⟩ s
    let ruled := expandBlocks ⟨policy, replacements, removals⟩ s
    (∀ e, ruled.outcome = .error e ↔ plain.outcome = .error e) ∧
    (∀ nodes, plain.outcome = .ok nodes → ∃ t : Script, (∀ u : Script, u.nodes = nodes ↔ u = t) ∧
      ruled.outcome = .ok (joinNodes (t.rewrite replacements removals).nodes [])) ∧
    ruled.blocks = plain.blocks.filter (fun name => !removals.contains name) ∧
    ∀ replacements', let other := expandBlocks ⟨policy, replacements', removals⟩ s
      ((∀ name, removals.contains name = false →
        replacements'.find? name = replacements.find? name) → other = ruled) ∧
      ((∀ name, replacements'.contains name = replacements.contains name) →
        other.blocks = ruled.blocks ∧ other.outcome.map markers = ruled.outcome.map markers) := by
  intro plain ruled
  rcases expandBlocks_cases policy s with ⟨trees, hall⟩ | ⟨trees, t, hjoined, hall⟩
  · have hplain : plain = _ := hall Dict.empty Dict.empty
    have hruled : ruled = _ := hall replacements removals
    refine ⟨fun e => by rw [hplain, hruled], fun nodes h => ?_, ?_, fun replacements' => ?_⟩
    · rw [hplain] at h
      cases h
    · rw [hplain, hruled]
      exact Forest.recordedOf_eq_filter policy replacements removals trees
    · intro other
      have hother : other = _ := hall replacements' removals
      rw [hother, hruled]
      exact ⟨fun _ => rfl, fun _ => ⟨rfl, rfl⟩⟩
  · have hplain : plain = _ := hall Dict.empty Dict.empty
    have hruled : ruled = _ := hall replacements removals
    rw [Script.rewrite_empty, hjoined] at hplain
    refine ⟨fun e => by rw [hplain, hruled]; simp, fun nodes h => ⟨t, fun u => ?_, ?_⟩, ?_,
      fun replacements' => ?_⟩
    · rw [hplain] at h
      obtain rfl : t.nodes = nodes := Except.ok.inj h
      exact ⟨Script.nodes_injective, congrArg Script.nodes⟩
    · rw [hruled]
    · rw [hplain, hruled]
      exact Forest.recordedOf_eq_filter policy replacements removals trees
    · intro other
      have hother : other = _ := hall replacements' removals
      rw [hother, hruled]
      refine ⟨fun h => by rw [Script.rewrite_congr h]; rfl, fun h => ⟨rfl, ?_⟩⟩
      simp only [Except.map, markers_joinNodes, markers_rewrite_congr h]

/-- The removed block takes the replaced one inside it along, but that is recorded.  In the other
one the replacement looks like a block and is none. -/
example :
    let text := "1<!-- [b] -->2<!-- [a] -->3<!-- [/a] --><!-- [/b] -->4<!-- [a] -->5<!-- [/a] -->"
    let replacement := "<!-- [b] --><!-- [/b] -->".toList
    let expansion := expandBlocks ⟨⟨true, 10⟩, Dict.ofList [(['a'], replacement), (['b'], ['x'])],
      NameSet.ofList [['b']]⟩ text.toList
    expansion.blocks = [['a'], ['a']] ∧ expansion.outcome =
      .ok [.literal "14".toList, .loopOpen ['a'], .literal replacement, .loopClose ['a']] := by
  decide +kernel

end CommentTemplate
