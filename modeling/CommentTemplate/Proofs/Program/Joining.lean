import CommentTemplate.Placeholder

/-!
# Joining sequences of nodes

The stages of a compilation put sequences of nodes together, and literals that meet are merged on
the way.  A loop marker is never merged with anything, so whatever is done in front of one does
not depend on what stands behind it.

## Main definitions

* `Node.isMarker`, `markers` — the loop markers among some nodes
* `closeNames` — the names of the closing markers
* `finish` — nodes with their literals merged and the placeholders in them expanded

## Main statements

* `joinNodes_assoc` — joining is associative
* `joinNodes_behind`, `placeholderNodes_behind`, `expandPlaceholders_behind` — a marker keeps what
  is behind it apart
* `markers_finish` — neither merging nor placeholders touch the markers
* `normal_finish` — the result has no empty literal and no two literals side by side
-/

namespace CommentTemplate

/-- Whether a node opens or closes a loop. -/
def Node.isMarker : Node → Bool
  | .loopOpen _ => true
  | .loopClose _ => true
  | _ => false

/-- The loop markers among some nodes. -/
def markers (nodes : List Node) : List Node := nodes.filter Node.isMarker

/-- The blocks of the closing markers among some nodes, in order. -/
def closeNames (nodes : List Node) : List Text :=
  nodes.filterMap fun
    | .loopClose block => some block
    | _ => none

/-! ## Literals in front -/

@[simp] theorem prependLiteral_empty (nodes : List Node) : prependLiteral [] nodes = nodes := by
  rcases nodes with _ | ⟨_ | _ | _ | _, nodes⟩ <;> rfl

/-- Two texts in front make one literal. -/
theorem prependLiteral_append (t u : Text) (nodes : List Node) :
    prependLiteral (t ++ u) nodes = prependLiteral t (prependLiteral u nodes) := by
  by_cases ht : t = []
  · subst ht; simp
  · by_cases hu : u = []
    · subst hu; simp
    · rcases nodes with _ | ⟨_ | _ | _ | _, nodes⟩ <;> simp [prependLiteral, ht, hu]

/-- A literal in front of a marker is a node of its own. -/
theorem prependLiteral_behind {n : Node} (hn : n.isMarker = true) (t : Text)
    (front back : List Node) :
    prependLiteral t (front ++ n :: back) = prependLiteral t front ++ n :: back := by
  by_cases ht : t = []
  · subst ht; simp
  · rcases front with _ | ⟨_ | _ | _ | _, front⟩
    · cases n <;> simp_all [prependLiteral, Node.isMarker]
    all_goals simp [prependLiteral, ht]

@[simp] theorem markers_prependLiteral (t : Text) (nodes : List Node) :
    markers (prependLiteral t nodes) = markers nodes := by
  by_cases ht : t = []
  · subst ht; simp
  · rcases nodes with _ | ⟨_ | _ | _ | _, nodes⟩ <;>
      simp [prependLiteral, ht, markers, List.filter_cons, Node.isMarker]

/-! ## Sequences in front -/

@[simp] theorem joinNodes_nil (back : List Node) : joinNodes [] back = back := rfl

@[simp] theorem joinNodes_literal (t : Text) (nodes back : List Node) :
    joinNodes (.literal t :: nodes) back = prependLiteral t (joinNodes nodes back) := rfl

@[simp] theorem joinNodes_loopOpen (block : Text) (nodes back : List Node) :
    joinNodes (.loopOpen block :: nodes) back = .loopOpen block :: joinNodes nodes back := rfl

@[simp] theorem joinNodes_loopClose (block : Text) (nodes back : List Node) :
    joinNodes (.loopClose block :: nodes) back = .loopClose block :: joinNodes nodes back := rfl

@[simp] theorem joinNodes_varRef (name : Text) (function : Option Text) (nodes back : List Node) :
    joinNodes (.varRef name function :: nodes) back =
      .varRef name function :: joinNodes nodes back := rfl

theorem joinNodes_append (a b back : List Node) :
    joinNodes (a ++ b) back = joinNodes a (joinNodes b back) := List.foldr_append

theorem joinNodes_prependLiteral (t : Text) (nodes back : List Node) :
    joinNodes (prependLiteral t nodes) back = prependLiteral t (joinNodes nodes back) := by
  by_cases ht : t = []
  · subst ht; simp
  · rcases nodes with _ | ⟨u | _ | _ | _, nodes⟩
    case cons.literal =>
      have hmerge : prependLiteral t (.literal u :: nodes) = .literal (t ++ u) :: nodes := by
        simp [prependLiteral, ht]
      rw [hmerge, joinNodes_literal, prependLiteral_append, joinNodes_literal]
    all_goals simp [prependLiteral, ht]

/-- Joining is associative. -/
theorem joinNodes_assoc (a b back : List Node) :
    joinNodes (joinNodes a b) back = joinNodes a (joinNodes b back) := by
  induction a with
  | nil => rfl
  | cons n a ih =>
      cases n with
      | literal t => rw [joinNodes_literal, joinNodes_prependLiteral, ih, joinNodes_literal]
      | _ => simp [ih]

/-- What is joined in front of a marker does not depend on what is behind it. -/
theorem joinNodes_behind {n : Node} (hn : n.isMarker = true) (a back : List Node) :
    joinNodes a (n :: back) = joinNodes a [] ++ n :: back := by
  induction a with
  | nil => rfl
  | cons m a ih =>
      cases m with
      | literal t => rw [joinNodes_literal, ih, prependLiteral_behind hn, joinNodes_literal]
      | _ => simp [ih]

@[simp] theorem markers_joinNodes (a back : List Node) :
    markers (joinNodes a back) = markers a ++ markers back := by
  induction a with
  | nil => rfl
  | cons n a ih =>
      cases n with
      | literal t =>
          rw [joinNodes_literal, markers_prependLiteral, ih]
          rfl
      | loopOpen block | loopClose block | varRef name function =>
          simp only [markers] at ih
          simp [markers, List.filter_cons, Node.isMarker, ih]

/-! ## Placeholders in literals -/

theorem Placeholder.isMarker_node (p : Placeholder) : p.node.isMarker = false := rfl

@[simp] theorem placeholderNodes_empty (nodes : List Node) : placeholderNodes [] nodes = nodes := by
  simp [placeholderNodes, scanNodes]

/-- Placeholders in front of a marker do not depend on what is behind it. -/
theorem placeholderNodes_behind {n : Node} (hn : n.isMarker = true) (t : Text)
    (front back : List Node) :
    placeholderNodes t (front ++ n :: back) = placeholderNodes t front ++ n :: back := by
  unfold placeholderNodes scanNodes
  rw [prependLiteral_behind hn]
  induction (placeholderTag.scan t).found with
  | nil => rfl
  | cons f fs ih => rw [List.foldr_cons, ih, ← List.cons_append, prependLiteral_behind hn]; rfl

@[simp] theorem markers_placeholderNodes (t : Text) (nodes : List Node) :
    markers (placeholderNodes t nodes) = markers nodes := by
  unfold placeholderNodes scanNodes
  induction (placeholderTag.scan t).found with
  | nil => exact markers_prependLiteral _ _
  | cons f fs ih =>
      rw [List.foldr_cons, markers_prependLiteral, markers,
        List.filter_cons_of_neg (by simp [f.tag.isMarker_node])]
      exact ih

/-- Placeholders leave a normal sequence normal. -/
theorem normal_placeholderNodes (t : Text) {nodes : List Node} (h : Normal nodes) :
    Normal (placeholderNodes t nodes) := by
  unfold placeholderNodes scanNodes
  induction (placeholderTag.scan t).found with
  | nil => exact normal_prependLiteral _ h
  | cons f fs ih =>
      rw [List.foldr_cons]
      exact normal_prependLiteral _ (show Normal (f.tag.node :: _) from ih)

/-- Markers stay between the expansions of what is before and behind them. -/
theorem expandPlaceholders_behind {n : Node} (hn : n.isMarker = true) (front back : List Node) :
    expandPlaceholders (front ++ n :: back) =
      expandPlaceholders front ++ n :: expandPlaceholders back := by
  induction front with
  | nil => cases n <;> simp_all [expandPlaceholders, Node.isMarker]
  | cons m front ih =>
      cases m with
      | literal t =>
          rw [List.cons_append, expandPlaceholders, ih, placeholderNodes_behind hn,
            expandPlaceholders]
      | _ => simp [expandPlaceholders, ih]

@[simp] theorem markers_expandPlaceholders (nodes : List Node) :
    markers (expandPlaceholders nodes) = markers nodes := by
  induction nodes with
  | nil => rfl
  | cons n nodes ih =>
      cases n with
      | literal t =>
          rw [expandPlaceholders, markers_placeholderNodes, ih]
          rfl
      | loopOpen block | loopClose block | varRef name function =>
          simp only [markers] at ih
          simp [markers, expandPlaceholders, List.filter_cons, Node.isMarker, ih]

theorem normal_expandPlaceholders (nodes : List Node) : Normal (expandPlaceholders nodes) := by
  induction nodes with
  | nil => trivial
  | cons n nodes ih =>
      cases n with
      | literal t => exact normal_placeholderNodes t ih
      | _ => exact ih

/-! ## The last two steps of a compilation -/

/-- Nodes with their literals merged and the placeholders in them expanded. -/
def finish (nodes : List Node) : List Node := expandPlaceholders (joinNodes nodes [])

@[simp] theorem finish_literal (t : Text) : finish [.literal t] = placeholderNodes t [] := by
  by_cases ht : t = []
  · subst ht; simp [finish, expandPlaceholders]
  · simp [finish, prependLiteral, ht, expandPlaceholders]

/-- **Markers cut the last two steps into independent parts.** -/
theorem finish_behind {n : Node} (hn : n.isMarker = true) (front back : List Node) :
    finish (front ++ n :: back) = finish front ++ n :: finish back := by
  have hjoin : joinNodes (n :: back) [] = n :: joinNodes back [] := by
    cases n <;> simp_all [Node.isMarker]
  rw [finish, joinNodes_append, hjoin, joinNodes_behind hn, expandPlaceholders_behind hn]
  rfl

@[simp] theorem markers_finish (nodes : List Node) : markers (finish nodes) = markers nodes := by
  rw [finish, markers_expandPlaceholders, markers_joinNodes]
  exact List.append_nil _

theorem normal_finish (nodes : List Node) : Normal (finish nodes) := normal_expandPlaceholders _

end CommentTemplate
