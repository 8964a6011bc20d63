import CommentTemplate.Proofs.Outcome
import CommentTemplate.Render

/-!
# Programs as trees

A program is a flat sequence of nodes, and it is rendered by positions: the partner of a marker
says where its loop ends.  Here the loops are trees, and a tree is evaluated by recursion on
itself.  Both give the same text and the same error.

## Main definitions

* `Script` — a program with its loops as trees
* `Script.nodes` — the flat form
* `Script.eval` — the text of a script, by recursion on the tree
* `Script.Fits` — partners that end the loops of a script where they end

## Main statements

* `loopPartners_nodes` — the partners found for the flat form
* `renderNodes_nodes` — rendering with partners that fit is evaluation
* `render_nodes` — rendering the flat form of a script is evaluating it
* `Script.render_ne_unbalancedLoop` — no marker of a script is without a partner
-/

namespace CommentTemplate

open Json (Scope)

/-- A program with its loops as trees: a sequence of steps in which a loop carries the sequence
of its body. -/
inductive Script where
  /-- No step. -/
  | done
  /-- Text, and then further steps. -/
  | literal (text : Text) (next : Script)
  /-- A variable, and then further steps. -/
  | varRef (name : Text) (function : Option Text) (next : Script)
  /-- A loop over a block, and then further steps. -/
  | loop (block : Text) (body next : Script)
deriving DecidableEq, Repr

namespace Script

/-- The flat form of a script. -/
def nodes : Script → List Node
  | done => []
  | literal text next => .literal text :: next.nodes
  | varRef name function next => .varRef name function :: next.nodes
  | loop block body next => .loopOpen block :: (body.nodes ++ .loopClose block :: next.nodes)

/-- The text of a script within some scopes.  The steps are evaluated in order, the body of a loop
once for each scope of the collection, and the first failure is the failure of the whole. -/
def eval (strict : Bool) (b : Bindings) : Script → List Scope → Except RenderError Text
  | done, _ => .ok []
  | literal text next, scopes => do
    let after ← next.eval strict b scopes
    return text ++ after
  | varRef name _ next, scopes => do
    let text ← showVariable strict name scopes
    let after ← next.eval strict b scopes
    return text ++ after
  | loop block body next, scopes => do
    let turns ← collection b block scopes
    let texts ← turns.mapM fun turn => body.eval strict b (turn :: scopes)
    let after ← next.eval strict b scopes
    return texts.flatten ++ after

/-- The partners of the markers of a script whose flat form starts at position `i`.  A loop is
listed where it ends, so after the loops inside it. -/
def partners (i : Nat) : Script → Partners
  | done => []
  | literal _ next => next.partners (i + 1)
  | varRef _ _ next => next.partners (i + 1)
  | loop _ body next =>
    body.partners (i + 1) ++
      (i, i + 1 + body.nodes.length) :: next.partners (i + 1 + body.nodes.length + 1)

/-- Partners that end every loop of a script at position `i` where it ends. -/
def Fits (p : Partners) : Nat → Script → Prop
  | _, done => True
  | i, literal _ next => Fits p (i + 1) next
  | i, varRef _ _ next => Fits p (i + 1) next
  | i, loop _ body next =>
    p.closeOf i = some (i + 1 + body.nodes.length) ∧ Fits p (i + 1) body ∧
      Fits p (i + 1 + body.nodes.length + 1) next

end Script

/-! ## The partners of a script -/

/-- Matching the markers of a script leaves the loops that are open around it as they were. -/
theorem partnersFrom_nodes (t : Script) (i : Nat) (opened : List (Nat × Text))
    (rest : List Node) :
    partnersFrom i opened (t.nodes ++ rest) =
      (partnersFrom (i + t.nodes.length) opened rest).map (t.partners i ++ ·) := by
  induction t generalizing i opened rest with
  | done =>
      cases h : partnersFrom i opened rest <;>
        simp [Script.nodes, Script.partners, h, Except.map]
  | literal text next ih =>
      simp only [Script.nodes, List.cons_append, partnersFrom, ih, Script.partners,
        List.length_cons]
      congr 2
      omega
  | varRef name function next ih =>
      simp only [Script.nodes, List.cons_append, partnersFrom, ih, Script.partners,
        List.length_cons]
      congr 2
      omega
  | loop block body next ihBody ihNext =>
      have hlen : i + (Script.loop block body next).nodes.length =
          i + 1 + body.nodes.length + 1 + next.nodes.length := by
        simp only [Script.nodes, List.length_cons, List.length_append]
        omega
      rw [hlen]
      simp only [Script.nodes, List.cons_append, List.append_assoc, partnersFrom, ihBody, ihNext,
        Script.partners]
      cases partnersFrom (i + 1 + body.nodes.length + 1 + next.nodes.length) opened rest <;>
        simp [Except.map, bind, Except.bind, pure, Except.pure]

/-- The markers of a script are matched without an error. -/
theorem loopPartners_nodes (t : Script) : loopPartners t.nodes = .ok (t.partners 0) := by
  have h := partnersFrom_nodes t 0 [] []
  simpa [loopPartners, partnersFrom, Except.map] using h

theorem Script.start_of_mem_partners {t : Script} {i : Nat} {e : Nat × Nat}
    (he : e ∈ t.partners i) : i ≤ e.1 ∧ e.1 < i + t.nodes.length := by
  induction t generalizing i with
  | done => simp [partners] at he
  | literal text next ih | varRef name function next ih =>
      have := ih he
      simp only [nodes, List.length_cons]
      omega
  | loop block body next ihBody ihNext =>
      simp only [nodes, List.length_cons, List.length_append]
      rw [partners, List.mem_append, List.mem_cons] at he
      rcases he with he | rfl | he
      · have := ihBody he
        omega
      · simp
      · have := ihNext he
        omega

/-- Partners of other starting positions do not matter. -/
theorem Partners.closeOf_append_of_ne {p q : Partners} {start : Nat}
    (h : ∀ e ∈ p, e.1 ≠ start) : Partners.closeOf (p ++ q) start = Partners.closeOf q start := by
  have hnone : p.find? (fun e => decide (e.1 = start)) = none := by
    simpa using h
  rw [closeOf, closeOf, List.find?_append, hnone, Option.none_or]

/-- **The partners of a script fit it**, also among partners of loops that start earlier and any
that are listed later.  What is listed before the partners of a part of the script are loops that
ended before that part, so they started before it as well. -/
theorem Script.fits_partners (t : Script) (i : Nat) (front back : Partners)
    (hfront : ∀ e ∈ front, e.1 < i) : Fits (front ++ (t.partners i ++ back)) i t := by
  induction t generalizing i front back with
  | done => trivial
  | literal text next ih | varRef name function next ih =>
      exact ih (i + 1) front back fun e he => Nat.lt_succ_of_lt (hfront e he)
  | loop block body next ihBody ihNext =>
      refine ⟨?_, ?_, ?_⟩
      · rw [Partners.closeOf_append_of_ne fun e he => Nat.ne_of_lt (hfront e he), partners,
          List.append_assoc, Partners.closeOf_append_of_ne fun e he =>
            Nat.ne_of_gt (start_of_mem_partners he).1]
        simp [Partners.closeOf]
      · rw [partners, List.append_assoc]
        exact ihBody (i + 1) front _ fun e he => Nat.lt_succ_of_lt (hfront e he)
      · -- The loop and those in its body have ended by now, and they join the front.
        have hall : ∀ e ∈ front ++ (body.partners (i + 1) ++ [(i, i + 1 + body.nodes.length)]),
            e.1 < i + 1 + body.nodes.length + 1 := by
          intro e he
          simp only [List.mem_append, List.mem_singleton] at he
          rcases he with he | he | rfl
          · have := hfront e he
            omega
          · have := (start_of_mem_partners he).2
            omega
          · simp
            omega
        simpa [partners] using ihNext (i + 1 + body.nodes.length + 1) _ back hall

/-- The partners that are found for a script fit it. -/
theorem Script.fits_partners_self (t : Script) : Fits (t.partners 0) 0 t := by
  have h := t.fits_partners 0 [] [] (List.forall_mem_nil _)
  rwa [List.nil_append, List.append_nil] at h

/-! ## Rendering -/

/-- **Rendering by positions is evaluation of the tree**, for partners that fit. -/
theorem renderNodes_nodes {strict : Bool} {b : Bindings} {p : Partners} {t : Script} {i : Nat}
    (h : t.Fits p i) (scopes : List Scope) :
    renderNodes strict b p i t.nodes scopes = t.eval strict b scopes := by
  induction t generalizing i scopes with
  | done => rw [Script.nodes, renderNodes, Script.eval]
  | literal text next ih => rw [Script.nodes, renderNodes, ih h, Script.eval]
  | varRef name function next ih => rw [Script.nodes, renderNodes, ih h, Script.eval]
  | loop block body next ihBody ihNext =>
      obtain ⟨hclose, hbody, hnext⟩ := h
      -- The closing marker is where the partner says, so the stretch is cut at the right place.
      have hsize : (p.closeOf i).getD 0 - (i + 1) = body.nodes.length := by
        rw [hclose, Option.getD_some]
        omega
      have htake : (body.nodes ++ .loopClose block :: next.nodes).take body.nodes.length =
          body.nodes := List.take_left
      have hdrop : (body.nodes ++ .loopClose block :: next.nodes).drop (body.nodes.length + 1) =
          next.nodes := by simp [List.drop_append]
      rw [Script.nodes, renderNodes]
      simp only [hsize, htake, hdrop, ihBody hbody, ihNext hnext]
      rfl

/-- Rendering the flat form of a script is evaluating the script. -/
theorem render_nodes (strict : Bool) (b : Bindings) (t : Script) :
    render strict ⟨t.nodes⟩ b = t.eval strict b [b.values] := by
  rw [render, loopPartners_nodes]
  exact renderNodes_nodes t.fits_partners_self _

/-! ## Errors of a script -/

/-- Only where it is asked for is a variable without a value an error. -/
theorem showVariable_eq_error {strict : Bool} {name : Text} {scopes : List Scope}
    {e : RenderError} (h : showVariable strict name scopes = .error e) :
    strict = true ∧ e = .undefinedVariable name := by
  unfold showVariable at h
  split at h
  · cases h
  · split at h
    · next hstrict =>
        cases h
        exact ⟨hstrict, rfl⟩
    · cases h

theorem collection_eq_error {b : Bindings} {block : Text} {scopes : List Scope}
    {e : RenderError} (h : collection b block scopes = .error e) : e = .notACollection block := by
  unfold collection at h
  split at h
  · split at h <;> cases h
    rfl
  · cases h
    rfl
  · cases h

/-- The only failures of a script are variables without a value, where that is an error, and blocks
bound to something that is no collection. -/
theorem Script.eval_eq_error {t : Script} {strict : Bool} {b : Bindings} {scopes : List Scope}
    {e : RenderError} (h : t.eval strict b scopes = .error e) :
    (strict = true ∧ ∃ name, e = .undefinedVariable name) ∨ ∃ block, e = .notACollection block := by
  induction t generalizing scopes with
  | done => cases h
  | literal text next ih =>
      rcases bind_eq_error_iff.1 h with h | ⟨after, -, h⟩
      · exact ih h
      · cases h
  | varRef name function next ih =>
      rcases bind_eq_error_iff.1 h with h | ⟨text, -, h⟩
      · obtain ⟨hstrict, he⟩ := showVariable_eq_error h
        exact .inl ⟨hstrict, name, he⟩
      · rcases bind_eq_error_iff.1 h with h | ⟨after, -, h⟩
        · exact ih h
        · cases h
  | loop block body next ihBody ihNext =>
      rcases bind_eq_error_iff.1 h with h | ⟨turns, -, h⟩
      · exact .inr ⟨block, collection_eq_error h⟩
      · rcases bind_eq_error_iff.1 h with h | ⟨texts, -, h⟩
        · obtain ⟨turn, -, h⟩ := exists_of_mapM_eq_error h
          exact ihBody h
        · rcases bind_eq_error_iff.1 h with h | ⟨after, -, h⟩
          · exact ihNext h
          · cases h

/-- A script has no marker without a partner, so none is reported. -/
theorem Script.render_ne_unbalancedLoop (t : Script) (strict : Bool) (b : Bindings)
    (block : Text) : render strict ⟨t.nodes⟩ b ≠ .error (.unbalancedLoop block) := by
  intro h
  rw [render_nodes] at h
  rcases eval_eq_error h with ⟨-, name, h⟩ | ⟨block', h⟩ <;> cases h

end CommentTemplate
