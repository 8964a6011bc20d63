import CommentTemplate.Program.Json
import CommentTemplate.Proofs.Json.Reading

/-!
# Programs are read back

A program is read back from the document it is written as, in every layout.  A node is written as
an object of strings whose first member says what kind of step it is, and the others are found
again by their names.

## Main statements

* `Node.reads_toJson`, `Program.reads_toJson` — nodes and programs are read back
* `Node.integral_toJson` — no number occurs in the value of a node
-/

namespace CommentTemplate

open Json

theorem NodeKind.reads_label (kind : NodeKind) : Reads reader (.string kind.label) kind := by
  have hfind : all.find? (·.label = kind.label) = some kind := by cases kind <;> decide
  intro l hl level blanks rest hblanks hrest
  simp only [reader]
  rw [reads_expecting (a := kind.label) ?_ hl level hblanks hrest]
  · simp only [bind, Except.bind, hfind]
    rfl
  · rfl

namespace Node

variable {levels : Nat} {p : Partial}

/-- The kind of step is read where none was read before. -/
theorem stepReads_kind (kind : NodeKind) (h : p.kind = none) :
    StepReads (readMember levels) p ("op".toList, .string kind.label)
      { p with kind := some kind } := by
  intro l hl level rest hrest
  have hkind := kind.reads_label hl level hl.gap hrest
  simp [readMember, h, colon_cons, hkind, bind, Except.bind, pure, Except.pure]

/-- Any other member is kept behind those read before. -/
theorem stepReads_other {name : Text} (h : name ≠ "op".toList) {v w : Value}
    (hv : Reads (value levels) v w) :
    StepReads (readMember levels) p (name, v)
      { p with members := p.members ++ [(name, w)] } := by
  intro l hl level rest hrest
  have hvalue := hv hl level hl.gap hrest
  simp only [readMember, if_neg h, colon_cons, hvalue, bind, Except.bind]
  rfl

theorem stepReads_member {name : Text} (h : name ≠ "op".toList) (s : Text) :
    StepReads (readMember levels) p (name, .string s)
      { p with members := p.members ++ [(name, .string s)] } :=
  stepReads_other h (reads_value_string levels s)

/-- A node is read from an object whose members say its kind and make it up. -/
theorem reads_object {ms members : List (Text × Value)} {kind : NodeKind} {n : Node}
    (h : Folds (readMember levels) {} ms ⟨some kind, members⟩)
    (hn : ofMembers kind members = .ok n) : Reads (reader (levels + 1)) (.object ms) n := by
  intro l hl level blanks rest hblanks _
  obtain ⟨t, hprint, hmembers⟩ := h.foldMembers_object hl level rest
  have hread := hmembers (('{' :: t).length + 1) (by simp only [List.length_cons]; omega)
  rw [hprint, reader, skipSpace_append_cons hblanks (by decide), scalar_brace]
  simp only [bind, Except.bind, List.drop_succ_cons, List.drop_zero, hread, hn]
  rfl

/-- A node is read back. -/
theorem reads_toJson (n : Node) : Reads (reader (levels + 1)) n.toJson n := by
  have hkind (kind : NodeKind) : StepReads (readMember levels) {}
      ("op".toList, .string kind.label) { kind := some kind } := stepReads_kind kind rfl
  cases n with
  | literal text => exact reads_object (.cons (hkind _)
      (.cons (stepReads_member (by decide) _) (.nil _))) rfl
  | loopOpen block => exact reads_object (.cons (hkind _)
      (.cons (stepReads_member (by decide) _) (.nil _))) rfl
  | loopClose block => exact reads_object (.cons (hkind _)
      (.cons (stepReads_member (by decide) _) (.nil _))) rfl
  | varRef name function =>
      cases function with
      | none => exact reads_object (.cons (hkind _)
          (.cons (stepReads_member (by decide) _) (.nil _))) rfl
      | some function => exact reads_object (.cons (hkind _)
          (.cons (stepReads_member (by decide) _)
            (.cons (stepReads_member (by decide) _) (.nil _)))) rfl

theorem integral_toJson (n : Node) : n.toJson.Integral := by
  have hstrings {ms : List (Text × Value)} (h : ∀ m ∈ ms, ∃ s, m.2 = .string s) :
      (Value.object ms).Integral :=
    .object fun m hm => by
      obtain ⟨s, hs⟩ := h m hm
      exact hs ▸ .string s
  rcases n with _ | _ | _ | ⟨name, _ | function⟩ <;> exact hstrings (by simp)

end Node

namespace Program

/-- A program is read back. -/
theorem reads_toJson (p : Program) (levels : Nat) :
    Reads (reader (levels + 3)) p.toJson p := by
  have hnodes : Reads (nodesReader (levels + 2)) (.array (p.nodes.map Node.toJson)) p.nodes := by
    refine reads_array ?_ fun v hv => ?_
    · rw [List.forall₂_map_left_iff, List.forall₂_same]
      exact fun n _ => n.reads_toJson
    · obtain ⟨n, -, rfl⟩ := List.mem_map.1 hv
      exact n.integral_toJson
  have hfills : Fills fields (levels + 2) none
      [("nodes".toList, .array (p.nodes.map Node.toJson))] (some p.nodes) :=
    .cons rfl rfl (reads_fieldOf hnodes _) (.nil _)
  exact hfills.reads_record rfl

end Program

end CommentTemplate
