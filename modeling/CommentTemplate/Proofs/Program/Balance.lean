import CommentTemplate.Proofs.Program.Nested

/-!
# Programs in and out of balance

A program may come from anywhere, so its loop markers need not pair up.  The matcher keeps the open
loops on a stack, and it succeeds exactly on the properly nested sequences.  Hence a program is
either the flat form of a script, or rendering it fails before the bindings are looked at.

## Main definitions

* `Closes` — sequences that end some open loops, and are properly nested apart from that

## Main statements

* `closes_of_partnersFrom` — what the matcher accepts ends the loops that are open
* `nested_iff_loopPartners` — the matcher accepts exactly the properly nested sequences
* `Program.script_or_unbalanced` — the two kinds of programs
-/

namespace CommentTemplate

/-- Sequences of nodes that end some open loops, the innermost one first.  In front of each ending,
and behind the last one, they are properly nested. -/
inductive Closes : List Text → List Node → Prop where
  | done {nodes : List Node} (h : Nested nodes) : Closes [] nodes
  | close {block : Text} {blocks : List Text} {body rest : List Node} (hbody : Nested body)
    (h : Closes blocks rest) : Closes (block :: blocks) (body ++ .loopClose block :: rest)

section Closes

variable {block : Text} {blocks : List Text} {front nodes : List Node}

/-- Properly nested nodes in front end none of the open loops. -/
theorem Closes.behind (hfront : Nested front) (h : Closes blocks nodes) :
    Closes blocks (front ++ nodes) := by
  cases h with
  | done h => exact .done (hfront.append h)
  | close hbody h =>
      rw [← List.append_assoc]
      exact .close (hfront.append hbody) h

/-- A loop that opens in front is the innermost one, so it ends first. -/
theorem Closes.open (h : Closes (block :: blocks) nodes) :
    Closes blocks (.loopOpen block :: nodes) := by
  cases h with
  | @close _ _ body rest hbody h =>
      have hloop : Nested (.loopOpen block :: (body ++ [.loopClose block])) :=
        .loop block hbody .nil
      simpa using h.behind hloop

end Closes

section Partners

variable {i : Nat} {opened : List (Nat × Text)} {nodes : List Node} {partners : Partners}

/-- **What the matcher accepts ends the loops that are open.** -/
theorem closes_of_partnersFrom (h : partnersFrom i opened nodes = .ok partners) :
    Closes (opened.map Prod.snd) nodes := by
  fun_induction partnersFrom i opened nodes generalizing partners with
  | case1 => exact .done .nil
  | case2 => cases h
  | case3 i opened block nodes ih => exact (ih h).open
  | case4 i nodes start name opened ih =>
      -- The marker has the name of the innermost loop, so this is where that one ends.
      obtain ⟨rest, hrest, -⟩ := bind_eq_ok_iff.1 h
      exact .close .nil (ih hrest)
  | case5 | case6 => cases h
  | case7 i opened n nodes hopen hclose ih =>
      cases n with
      | literal text => exact (ih h).behind (.literal text .nil)
      | varRef name function => exact (ih h).behind (.varRef name function .nil)
      | loopOpen block => exact absurd rfl (hopen block)
      | loopClose block => exact absurd rfl (hclose block)

/-- The matcher complains about nothing but a marker without its partner. -/
theorem partnersFrom_eq_error {e : RenderError} (h : partnersFrom i opened nodes = .error e) :
    ∃ block, e = .unbalancedLoop block := by
  fun_induction partnersFrom i opened nodes with
  | case1 => cases h
  | case2 | case5 | case6 =>
      cases h
      exact ⟨_, rfl⟩
  | case3 _ _ _ _ ih | case7 _ _ _ _ _ _ ih => exact ih h
  | case4 i nodes start name opened ih =>
      rcases bind_eq_error_iff.1 h with h | ⟨rest, -, h⟩
      · exact ih h
      · cases h

/-- **The matcher accepts exactly the properly nested sequences.** -/
theorem nested_iff_loopPartners : Nested nodes ↔ ∃ partners, loopPartners nodes = .ok partners := by
  constructor
  · intro h
    obtain ⟨t, rfl⟩ := h.exists_script
    exact ⟨_, loopPartners_nodes t⟩
  · rintro ⟨partners, h⟩
    cases closes_of_partnersFrom h with
    | done h => exact h

end Partners

/-- A program is the flat form of a script, or its markers do not pair up. -/
theorem Program.script_or_unbalanced (p : Program) :
    (∃ t : Script, p = ⟨t.nodes⟩) ∨
      ∃ block, loopPartners p.nodes = .error (.unbalancedLoop block) := by
  cases h : loopPartners p.nodes with
  | ok partners =>
      obtain ⟨t, ht⟩ := (nested_iff_loopPartners.2 ⟨partners, h⟩).exists_script
      exact .inl ⟨t, by rw [ht]⟩
  | error e =>
      obtain ⟨block, rfl⟩ := partnersFrom_eq_error h
      exact .inr ⟨block, rfl⟩

/-- A program whose markers do not pair up has the same error with any bindings. -/
theorem render_of_unbalanced {p : Program} {e : RenderError} (h : loopPartners p.nodes = .error e)
    (strict : Bool) (b : Bindings) : render strict p b = .error e := by
  rw [render, h]
  rfl

end CommentTemplate
