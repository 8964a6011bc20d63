import CommentTemplate.Proofs.Render.SideBySide

/-!
# Renderings in parts

Two properly nested programs, one behind the other, render to the text of the one and the text of
the other.  A loop renders to the texts of its turns, so one more turn is one more text at the end:
that of the body alone, with the scope of the turn over the values that hold everywhere.

## Main definitions

* `Script.append` — one script behind another

## Main statements

* `render_append` — programs one behind the other
* `eval_pushIteration` — a turn of a block matters to the loops over that block only
* `eval_overriddenBy` — the scope of a turn over the values is as good as in front of them
* `render_loop`, `render_pushIteration` — a loop is its turns, and one more turn is one more text
-/

namespace CommentTemplate

open Json (Scope)

/-! ## One behind the other -/

/-- One script behind another. -/
def Script.append : Script → Script → Script
  | done, u => u
  | literal text next, u => literal text (next.append u)
  | varRef name function next, u => varRef name function (next.append u)
  | loop block body next, u => loop block body (next.append u)

theorem Script.nodes_append (t u : Script) : (t.append u).nodes = t.nodes ++ u.nodes := by
  induction t with
  | done => rfl
  | literal text next ih => rw [append, nodes, nodes, ih, List.cons_append]
  | varRef name function next ih => rw [append, nodes, nodes, ih, List.cons_append]
  | loop block body next _ ih =>
      rw [append, nodes, nodes, ih, List.cons_append, List.append_assoc, List.cons_append]

/-- The first script is evaluated first, and if it fails the second one is not. -/
theorem Script.eval_append (strict : Bool) (b : Bindings) (t u : Script) (scopes : List Scope) :
    (t.append u).eval strict b scopes = do
      let front ← t.eval strict b scopes
      let back ← u.eval strict b scopes
      return front ++ back := by
  induction t with
  | done => exact (bind_pure _).symm
  | literal text next ih =>
      simp only [append, eval, ih, bind_assoc, pure_bind, List.append_assoc]
  | varRef name function next ih =>
      simp only [append, eval, ih, bind_assoc, pure_bind, List.append_assoc]
  | loop block body next _ ih =>
      simp only [append, eval, ih, bind_assoc, pure_bind, List.append_assoc]

/-- **Programs one behind the other** render to their texts one behind the other, and the first
error counts. -/
theorem render_append {p q : List Node} (hp : Nested p) (hq : Nested q) (strict : Bool)
    (b : Bindings) : render strict ⟨p ++ q⟩ b = do
      let front ← render strict ⟨p⟩ b
      let back ← render strict ⟨q⟩ b
      return front ++ back := by
  obtain ⟨t, rfl⟩ := hp.exists_script
  obtain ⟨u, rfl⟩ := hq.exists_script
  rw [← Script.nodes_append, render_nodes, render_nodes, render_nodes, Script.eval_append]

/-! ## One more turn -/

section Turn

variable {b : Bindings} {block : Text} {scope : Scope} {body : Script}

theorem turnsOf_pushIteration_self (b : Bindings) (block : Text) (scope : Scope) :
    (b.pushIteration block scope).turnsOf block = b.turnsOf block ++ [scope] := by
  simp [Bindings.turnsOf, Bindings.pushIteration]

theorem turnsOf_pushIteration_of_ne {name : Text} (h : name ≠ block) :
    (b.pushIteration block scope).turnsOf name = b.turnsOf name := by
  simp [Bindings.turnsOf, Bindings.pushIteration, h]

/-- One more turn of a block does not matter where there is no loop over that block. -/
theorem eval_pushIteration (h : .loopOpen block ∉ body.nodes) (strict : Bool)
    (scopes : List Scope) :
    body.eval strict (b.pushIteration block scope) scopes = body.eval strict b scopes := by
  refine Script.eval_congr (fun name _ inner => rfl) fun name hname inner => ?_
  have hne : name ≠ block := fun heq => h (heq ▸ hname)
  exact collection_congr rfl (turnsOf_pushIteration_of_ne hne)

/-- The scope of a turn may be in front of the values, or be put over them. -/
theorem eval_overriddenBy (strict : Bool) (b : Bindings) (scope : Scope) (body : Script) :
    body.eval strict b [scope, b.values] =
      body.eval strict (b.extendValues scope) [b.values.overriddenBy scope] := by
  have hlookup (name : Text) (inner : List Scope) :
      lookupScopes name (inner ++ [scope, b.values]) =
        lookupScopes name (inner ++ [b.values.overriddenBy scope]) := by
    rw [lookupScopes_append, lookupScopes_concat, lookupScopes_cons, lookupScopes_single,
      Dict.find?_overriddenBy]
  refine Script.eval_congr (fun name _ inner => ?_) fun name _ inner => ?_
  · rw [showVariable, showVariable, hlookup]
  · exact collection_congr (hlookup name inner) rfl

/-- The texts of some turns and one more are those texts and one more. -/
theorem repeatTurns_concat (strict : Bool) (scopes turns : List Scope) (turn : Scope) :
    repeatTurns strict b body scopes (turns ++ [turn]) = do
      let front ← repeatTurns strict b body scopes turns
      let last ← body.eval strict b (turn :: scopes)
      return front ++ last := by
  simp [repeatTurns, List.mapM_append]

/-- A loop and nothing else is its turns. -/
theorem eval_loop_done {strict : Bool} {scopes turns : List Scope}
    (h : collection b block scopes = .ok turns) :
    (Script.loop block body .done).eval strict b scopes =
      repeatTurns strict b body scopes turns := by
  rw [eval_loop, h]
  simp only [Except.bind, Script.eval]
  cases repeatTurns strict b body scopes turns with
  | ok text => exact congrArg Except.ok (List.append_nil text)
  | error e => rfl

/-- A loop over a block that is not bound among the values renders to the turns of the block. -/
theorem render_loop (hvalues : b.values.contains block = false) (strict : Bool) (body : Script) :
    render strict ⟨.loopOpen block :: (body.nodes ++ [.loopClose block])⟩ b =
      repeatTurns strict b body [b.values] (b.turnsOf block) := by
  have hloop : .loopOpen block :: (body.nodes ++ [.loopClose block]) =
      (Script.loop block body .done).nodes := rfl
  have hunbound : lookupScopes block [b.values] = none := by
    simpa [lookupScopes_single, Dict.contains] using hvalues
  rw [hloop, render_nodes, eval_loop_done (collection_of_none hunbound)]

/-- **A loop with one more turn** renders to what it was and, behind that, its body alone, with the
scope of the turn over the values.  The body has to have no loop over the same block, since that
would have the turn as well. -/
theorem render_pushIteration {nodes : List Node} (hnodes : Nested nodes)
    (hblock : .loopOpen block ∉ nodes) (hvalues : b.values.contains block = false)
    (strict : Bool) (scope : Scope) :
    render strict ⟨.loopOpen block :: (nodes ++ [.loopClose block])⟩
        (b.pushIteration block scope) = do
      let front ← render strict ⟨.loopOpen block :: (nodes ++ [.loopClose block])⟩ b
      let last ← render strict ⟨nodes⟩ (b.extendValues scope)
      return front ++ last := by
  obtain ⟨body, rfl⟩ := hnodes.exists_script
  have hturns (turns : List Scope) :
      repeatTurns strict (b.pushIteration block scope) body [b.values] turns =
        repeatTurns strict b body [b.values] turns := by
    simp only [repeatTurns, eval_pushIteration hblock]
  have hafter : (b.pushIteration block scope).values.contains block = false := hvalues
  calc render strict ⟨.loopOpen block :: (body.nodes ++ [.loopClose block])⟩
        (b.pushIteration block scope)
      = repeatTurns strict (b.pushIteration block scope) body [b.values]
          ((b.pushIteration block scope).turnsOf block) := render_loop hafter strict body
    _ = repeatTurns strict b body [b.values] (b.turnsOf block ++ [scope]) := by
        rw [turnsOf_pushIteration_self, hturns]
    _ = _ := by
        rw [repeatTurns_concat, eval_overriddenBy, render_loop hvalues, render_nodes]
        rfl

end Turn

/-! ## Both -/

/-- **Rendering composes.**  Properly nested sequences one behind the other render to the texts of
both, and the error is the first one.  A loop with one more turn renders to what it was without,
and behind that the body with the scope of the turn over the values, as long as the body has no
loop over the same block and the block is not bound among the values. -/
theorem render_composes (strict : Bool) (b : Bindings) :
    (∀ p q : List Node, Nested p → Nested q →
      render strict ⟨p ++ q⟩ b = do
        let front ← render strict ⟨p⟩ b
        let back ← render strict ⟨q⟩ b
        return front ++ back) ∧
    ∀ (block : Text) (body : List Node) (scope : Scope), Nested body →
      .loopOpen block ∉ body → b.values.contains block = false →
      render strict ⟨.loopOpen block :: (body ++ [.loopClose block])⟩
          (b.pushIteration block scope) = do
        let front ← render strict ⟨.loopOpen block :: (body ++ [.loopClose block])⟩ b
        let last ← render strict ⟨body⟩ (b.extendValues scope)
        return front ++ last :=
  ⟨fun _ _ hp hq => render_append hp hq strict b,
    fun _ _ scope hbody hblock hvalues => render_pushIteration hbody hblock hvalues strict scope⟩

/-- The number of a row and its cells. -/
def rowNodes : List Node :=
  [.varRef "n".toList none, .loopOpen "cell".toList, .varRef "v".toList none,
    .loopClose "cell".toList]

/-- A row in front of the timetable has the cell that holds everywhere and no number.  A third row
in the loop comes behind the other two, with that cell and its own number. -/
theorem render_thirdRow :
    Nested rowNodes ∧ Nested timetable.nodes ∧ .loopOpen "row".toList ∉ rowNodes ∧
    timetableBindings.values.contains "row".toList = false ∧
    render false ⟨rowNodes ++ timetable.nodes⟩ timetableBindings =
      .ok "-| 1: true   | 2: - | ".toList ∧
    render false ⟨.loopOpen "row".toList :: (rowNodes ++ [.loopClose "row".toList])⟩
        (timetableBindings.pushIteration "row".toList (Dict.ofList [("n".toList, .int 3)])) =
      .ok "1true2-3-".toList := by
  have hrow : Nested rowNodes := .varRef _ _ (.loop _ (.varRef _ _ .nil) .nil)
  have htimetable : Nested timetable.nodes :=
    .literal _ (.loop _ (.varRef _ _ (.literal _ (.loop _ (.varRef _ _ (.literal _ .nil))
      (.literal _ .nil)))) (.varRef _ _ .nil))
  have hloop : .loopOpen "row".toList ∉ rowNodes := by decide
  have hvalues : timetableBindings.values.contains "row".toList = false := by decide +kernel
  obtain ⟨happend, hturn⟩ := render_composes false timetableBindings
  refine ⟨hrow, htimetable, hloop, hvalues, ?_, ?_⟩
  · exact (happend _ _ hrow htimetable).trans (by decide +kernel)
  · exact (hturn _ _ _ hrow hloop hvalues).trans (by decide +kernel)

end CommentTemplate
