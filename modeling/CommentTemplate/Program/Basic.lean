import CommentTemplate.Json.Reader

/-!
# Programs

A compiled template is a flat sequence of nodes.  A loop is bracketed by an opening and a closing
node that carry the name of its block; each turn of the loop binds the names of one scope.

## Main definitions

* `Node`, `Program`
* `prependLiteral`, `joinNodes` — putting sequences together so that neighbouring literals merge
  and empty ones vanish
* `Program.source` — the textual form with loop markers

## Main statements

* `Normal` — no empty literal and no two literals side by side
* `normal_joinNodes` — joining makes a normal sequence, whatever is joined in front
-/

namespace CommentTemplate

/-- A step of a compiled template. -/
inductive Node where
  /-- Text that is written as it is. -/
  | literal (text : Text)
  /-- The start of a loop over the scopes of a block. -/
  | loopOpen (block : Text)
  /-- The end of a loop. -/
  | loopClose (block : Text)
  /-- The value of a variable, with the function named for it, if any. -/
  | varRef (name : Text) (function : Option Text)
deriving DecidableEq, Repr

/-- A compiled template. -/
structure Program where
  /-- Its steps. -/
  nodes : List Node
deriving DecidableEq, Repr

/-- Text in front of a sequence of nodes: part of its first literal, or a literal of its own, or
nothing if the text is empty. -/
def prependLiteral (text : Text) : List Node → List Node
  | .literal u :: nodes => if text = [] then .literal u :: nodes else .literal (text ++ u) :: nodes
  | nodes => if text = [] then nodes else .literal text :: nodes

/-- A text as a sequence of nodes. -/
def literalNodes (text : Text) : List Node := prependLiteral text []

/-- One sequence of nodes in front of another, literals merged and empty ones dropped. -/
def joinNodes (front back : List Node) : List Node :=
  front.foldr
    (fun n nodes =>
      match n with
      | .literal text => prependLiteral text nodes
      | n => n :: nodes)
    back

/-- A sequence of nodes without empty literals and without two literals side by side. -/
def Normal : List Node → Prop
  | [] => True
  | .literal t :: nodes => t ≠ [] ∧ (∀ u, nodes.head? ≠ some (.literal u)) ∧ Normal nodes
  | _ :: nodes => Normal nodes

theorem normal_prependLiteral (text : Text) {nodes : List Node} (h : Normal nodes) :
    Normal (prependLiteral text nodes) := by
  by_cases ht : text = []
  · subst ht
    rcases nodes with _ | ⟨n, nodes⟩
    · exact h
    · cases n <;> simpa [prependLiteral] using h
  · rcases nodes with _ | ⟨n, nodes⟩
    · simp [prependLiteral, ht, Normal]
    · cases n
      · simp only [Normal] at h
        simp [prependLiteral, ht, Normal, h]
      all_goals simpa [prependLiteral, ht, Normal] using h

/-- Whatever is joined in front of a normal sequence, the whole is normal. -/
theorem normal_joinNodes (front : List Node) {back : List Node} (h : Normal back) :
    Normal (joinNodes front back) := by
  induction front with
  | nil => exact h
  | cons n front ih =>
    cases n
    · exact normal_prependLiteral _ ih
    all_goals exact ih

namespace Program

/-- The blocks of the loops, in the order in which the loops open. -/
def loops (p : Program) : List Text :=
  p.nodes.filterMap fun
    | .loopOpen block => some block
    | _ => none

/-- The textual form of a node: literals as they are, loops and variables as markers. -/
def nodeSource : Node → Text
  | .literal text => text
  | .loopOpen block =>
    "\x7b% for ".toList ++ block ++ "_vars in ".toList ++ block ++ " %\x7d".toList
  | .loopClose block => "\x7b% endfor ".toList ++ block ++ " %\x7d".toList
  | .varRef name _ => "\x7b\x7b ".toList ++ name ++ " \x7d\x7d".toList

/-- The textual form of a program. -/
def source (p : Program) : Text := p.nodes.flatMap nodeSource

end Program

end CommentTemplate
