import CommentTemplate.Program.Basic
import CommentTemplate.Replace

/-!
# Blocks

Every complete block of a text becomes a loop around the expansion of its body.  A block with a
replacement keeps its markers and has the replacement, as literal text, instead of its body.  A
removed block leaves nothing, and removal wins over replacement.

## Main definitions

* `BlockRules` — the policy, replacements and removals
* `expandBlocksAt` — the expansion of a text nested in some blocks
* `expandBlocks` — the expansion of a whole text

## Design decisions

**Names outlive failures.**  The names of the finished blocks are collected beside the outcome,
innermost first, so a caller sees how far an expansion came that failed.

**Bodies are always expanded.**  The body of a replaced or removed block is expanded too: blocks
inside it are recorded and can be nested too deep.
-/

namespace CommentTemplate

/-- What governs the expansion of blocks. -/
structure BlockRules where
  /-- How deep blocks may nest. -/
  policy : Policy
  /-- The contents that stand instead of the bodies of blocks. -/
  replacements : Replacements
  /-- The blocks to leave out. -/
  removals : NameSet

/-- The outcome of an expansion and the names of the blocks finished by then. -/
structure Expansion where
  /-- The names, innermost blocks first. -/
  blocks : List Text
  /-- The nodes, or the error that ended the expansion. -/
  outcome : Except CompileError (List Node)

namespace BlockRules

/-- The nodes of a block with an expanded body. -/
def nodes (rules : BlockRules) (name : Text) (body : List Node) : List Node :=
  if rules.removals.contains name then []
  else
    let body := match rules.replacements.find? name with
      | some text => literalNodes text
      | none => body
    .loopOpen name :: joinNodes body [.loopClose name]

/-- The names recorded for a block itself. -/
def record (rules : BlockRules) (name : Text) : List Text :=
  if rules.removals.contains name then [] else [name]

end BlockRules

/-- The expansion of a text that is nested in `depth` blocks. -/
def expandBlocksAt (rules : BlockRules) (depth : Nat) (s : Text) : Expansion :=
  match h : nextBlock s with
  | none => ⟨[], .ok (literalNodes s)⟩
  | some block =>
    have : block.body.length < s.length := nextPair_body_lt h
    have : block.after.length < s.length := nextPair_after_lt h
    match rules.policy.descend .block depth with
    | .error e => ⟨[], .error e⟩
    | .ok .truncate => ⟨[], .ok (literalNodes s)⟩
    | .ok .enter =>
      let inner := expandBlocksAt rules (depth + 1) block.body
      match inner.outcome with
      | .error e => ⟨inner.blocks, .error e⟩
      | .ok body =>
        let rest := expandBlocksAt rules depth block.after
        ⟨inner.blocks ++ (rules.record block.name ++ rest.blocks),
          rest.outcome.map fun after =>
            prependLiteral block.before (joinNodes (rules.nodes block.name body) after)⟩
termination_by s.length

/-- The expansion of all blocks of a text. -/
def expandBlocks (rules : BlockRules) (s : Text) : Expansion := expandBlocksAt rules 0 s

end CommentTemplate
