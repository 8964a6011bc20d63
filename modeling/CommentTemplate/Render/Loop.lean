import CommentTemplate.Program.Basic
import CommentTemplate.Render.Bindings

/-!
# Loop partners

A program may come from anywhere, so before it is rendered its loop markers are matched: each
opening marker with the closing marker of the same block that ends its loop.

## Main definitions

* `RenderError`
* `loopPartners` — the positions of opening markers with those of their closing markers
-/

namespace CommentTemplate

/-- Why a program cannot be rendered. -/
inductive RenderError where
  /-- A variable without a value. -/
  | undefinedVariable (name : Text)
  /-- A block bound to something else than an array of objects. -/
  | notACollection (block : Text)
  /-- A loop marker without its partner. -/
  | unbalancedLoop (block : Text)
  /-- Bindings that cannot be read. -/
  | invalidBindings (cause : Json.Error)
deriving DecidableEq, Repr

/-- The words for an error. -/
def RenderError.message : RenderError → Text
  | .undefinedVariable name => "Undefined variable: ".toList ++ name
  | .notACollection block =>
    "Block ".toList ++ block ++ " must be bound to an array of objects".toList
  | .unbalancedLoop block => "Unbalanced loop markers for block ".toList ++ block
  | .invalidBindings cause => "Invalid bindings: ".toList ++ cause.message

/-- The positions of opening markers, each with the position of its closing marker. -/
abbrev Partners := List (Nat × Nat)

/-- The partners among nodes that start at position `i`, where `opened` are the loops that are
open there, the innermost one first. -/
def partnersFrom : (i : Nat) → (opened : List (Nat × Text)) → List Node →
    Except RenderError Partners
  | _, [], [] => .ok []
  | _, (_, name) :: _, [] => .error (.unbalancedLoop name)
  | i, opened, .loopOpen block :: nodes => partnersFrom (i + 1) ((i, block) :: opened) nodes
  | i, opened, .loopClose block :: nodes =>
    match opened with
    | (start, name) :: opened =>
      if name = block then do
        let partners ← partnersFrom (i + 1) opened nodes
        return (start, i) :: partners
      else .error (.unbalancedLoop block)
    | [] => .error (.unbalancedLoop block)
  | i, opened, _ :: nodes => partnersFrom (i + 1) opened nodes

/-- The partners among the nodes of a program. -/
def loopPartners (nodes : List Node) : Except RenderError Partners := partnersFrom 0 [] nodes

/-- The position of the closing marker of the loop that opens at a position. -/
def Partners.closeOf (p : Partners) (start : Nat) : Option Nat :=
  (p.find? fun e => e.1 = start).map Prod.snd

end CommentTemplate
