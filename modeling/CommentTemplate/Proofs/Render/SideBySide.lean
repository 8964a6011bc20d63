import Mathlib.Data.List.Forall2
import CommentTemplate.Proofs.Compile.Placeholders
import CommentTemplate.Proofs.Program.Balance
import CommentTemplate.Proofs.Render.Semantics

/-!
# Two renderings side by side

A program is rendered twice, strictly and leniently or with different bindings.  Whatever the two
have in common is shown here once: it is enough to relate the scopes of the one with those of the
other, such that a variable shows the same within related scopes, and a loop has turns that lead
to related scopes again.  Then both renderings have the same outcome.

## Main definitions

* `Agrees` — outcomes that are the same, unless the first is an error that is excused
* `Bindings.turnsOf` — the turns that bindings have for a block
* `InStep` — what has to hold of the variables and the loops of a program
* `Over` — scopes that are the same but for the outermost ones

## Main statements

* `Agrees.bind`, `Agrees.mapM` — outcomes in sequence agree
* `InStep.eval`, `InStep.render` — renderings in step agree
* `inStep_over` — what is left to show where only the outermost scopes differ
* `Script.eval_congr`, `render_congr` — the same where no error is excused

## Design decisions

**Excused errors.**  A strict rendering stops at a variable without a value, and a lenient one goes
on.  Such a stop excuses the first rendering from agreeing with the second.  Where both should have
the same outcome, no error is excused (`agrees_iff_eq`).
-/

namespace CommentTemplate

open Json (Scope)

/-! ## Outcomes that agree -/

/-- Two outcomes agree: both succeed with related results, or both fail with the same error, or the
first one fails with an error that is excused. -/
inductive Agrees {ε α β : Type} (excused : ε → Prop) (r : α → β → Prop) :
    Except ε α → Except ε β → Prop where
  | ok {a : α} {b : β} (h : r a b) : Agrees excused r (.ok a) (.ok b)
  | error (e : ε) : Agrees excused r (.error e) (.error e)
  | pardon {e : ε} (h : excused e) (y : Except ε β) : Agrees excused r (.error e) y

section Agrees

variable {ε α β γ δ : Type} {excused : ε → Prop} {r : α → β → Prop} {q : γ → δ → Prop}

/-- What follows outcomes that agree has outcomes that agree, if it does so for related results. -/
theorem Agrees.bind {x : Except ε α} {y : Except ε β} {f : α → Except ε γ} {g : β → Except ε δ}
    (h : Agrees excused r x y) (hf : ∀ a b, r a b → Agrees excused q (f a) (g b)) :
    Agrees excused q (x >>= f) (y >>= g) := by
  cases h with
  | ok h => exact hf _ _ h
  | error e => exact .error e
  | pardon h y => exact .pardon h _

/-- Traversals of related lists agree, if their steps do. -/
theorem Agrees.mapM {xs : List α} {ys : List β} {f : α → Except ε γ} {g : β → Except ε δ}
    (h : List.Forall₂ r xs ys) (hf : ∀ a b, r a b → Agrees excused q (f a) (g b)) :
    Agrees excused (List.Forall₂ q) (xs.mapM f) (ys.mapM g) := by
  induction h with
  | nil => exact .ok .nil
  | cons h _ ih =>
      rw [List.mapM_cons, List.mapM_cons]
      refine (hf _ _ h).bind fun c d hcd => ih.bind fun cs ds hrest => ?_
      exact .ok (.cons hcd hrest)

theorem Agrees.mono {x : Except ε α} {y : Except ε β} (h : Agrees excused r x y)
    {r' : α → β → Prop} (hr : ∀ a b, r a b → r' a b) : Agrees excused r' x y := by
  cases h with
  | ok h => exact .ok (hr _ _ h)
  | error e => exact .error e
  | pardon h y => exact .pardon h y

theorem agrees_of_eq {r : α → α → Prop} (hr : ∀ a, r a a) {x y : Except ε α} (h : x = y) :
    Agrees excused r x y := by
  subst h
  cases x with
  | ok a => exact .ok (hr a)
  | error e => exact .error e

/-- If no error is excused, outcomes agree if they are equal. -/
theorem agrees_iff_eq {x y : Except ε α} : Agrees (fun _ => False) Eq x y ↔ x = y := by
  constructor
  · rintro (rfl | _ | h)
    · rfl
    · rfl
    · exact h.elim
  · exact agrees_of_eq fun _ => rfl

end Agrees

/-! ## The names in a program -/

section Names

variable {name : Text} {nodes : List Node}

theorem mem_variableNames :
    name ∈ variableNames nodes ↔ ∃ function, .varRef name function ∈ nodes := by
  rw [variableNames, List.mem_filterMap]
  constructor
  · rintro ⟨n, hn, h⟩
    cases n with
    | varRef name' function =>
        obtain rfl : name' = name := Option.some.inj h
        exact ⟨function, hn⟩
    | _ => cases h
  · rintro ⟨function, hn⟩
    exact ⟨_, hn, rfl⟩

theorem Program.mem_loops {p : Program} {block : Text} :
    block ∈ p.loops ↔ .loopOpen block ∈ p.nodes := by
  rw [loops, List.mem_filterMap]
  constructor
  · rintro ⟨n, hn, h⟩
    cases n with
    | loopOpen block' =>
        obtain rfl : block' = block := Option.some.inj h
        exact hn
    | _ => cases h
  · intro hn
    exact ⟨_, hn, rfl⟩

end Names

/-! ## What a loop depends on -/

/-- The scopes of the turns that bindings have for a block, none if it is not bound. -/
def Bindings.turnsOf (b : Bindings) (block : Text) : List Scope := (b.blocks.find? block).getD []

section Collection

variable {b b' : Bindings} {block : Text} {scopes scopes' : List Scope}

/-- A name that stands for nothing within the scopes is looked up among the blocks. -/
theorem collection_of_none (h : lookupScopes block scopes = none) :
    collection b block scopes = .ok (b.turnsOf block) := by
  rw [collection, h]
  rfl

/-- For a name that stands for something, the blocks do not matter. -/
theorem collection_of_some {v : Json.Value} (h : lookupScopes block scopes = some v)
    (h' : lookupScopes block scopes' = some v) :
    collection b block scopes = collection b' block scopes' := by
  rw [collection, collection, h, h']
  cases v <;> rfl

/-- A loop depends on what its block stands for within the scopes, and on the turns of the block. -/
theorem collection_congr (hlookup : lookupScopes block scopes = lookupScopes block scopes')
    (hturns : b.turnsOf block = b'.turnsOf block) :
    collection b block scopes = collection b' block scopes' := by
  cases h : lookupScopes block scopes with
  | some v => exact collection_of_some h (hlookup ▸ h)
  | none => rw [collection_of_none h, collection_of_none (hlookup ▸ h), hturns]

end Collection

/-! ## Renderings in step -/

/-- Two renderings keep step over some nodes: within related scopes each variable shows the same,
and each loop has turns that pair up and lead to related scopes again. -/
structure InStep (excused : RenderError → Prop) (strict strict' : Bool) (b b' : Bindings)
    (R : List Scope → List Scope → Prop) (nodes : List Node) : Prop where
  /-- The variables. -/
  shown {name : Text} {function : Option Text} {scopes scopes' : List Scope}
    (hn : .varRef name function ∈ nodes) (h : R scopes scopes') :
    Agrees excused Eq (showVariable strict name scopes) (showVariable strict' name scopes')
  /-- The loops. -/
  turns {block : Text} {scopes scopes' : List Scope} (hn : .loopOpen block ∈ nodes)
    (h : R scopes scopes') :
    Agrees excused (List.Forall₂ fun turn turn' => R (turn :: scopes) (turn' :: scopes'))
      (collection b block scopes) (collection b' block scopes')

namespace InStep

variable {excused : RenderError → Prop} {strict strict' : Bool} {b b' : Bindings}
  {R : List Scope → List Scope → Prop} {nodes : List Node} {scopes scopes' : List Scope}

/-- Renderings keep step over any part of the nodes. -/
theorem mono (h : InStep excused strict strict' b b' R nodes) {part : List Node}
    (hpart : part ⊆ nodes) : InStep excused strict strict' b b' R part :=
  ⟨fun hn => h.shown (hpart hn), fun hn => h.turns (hpart hn)⟩

/-- **Evaluations in step agree**, within related scopes. -/
theorem eval {t : Script} (h : InStep excused strict strict' b b' R t.nodes)
    (hR : R scopes scopes') :
    Agrees excused Eq (t.eval strict b scopes) (t.eval strict' b' scopes') := by
  induction t generalizing scopes scopes' with
  | done => exact .ok rfl
  | literal text next ih =>
      refine (ih (h.mono (List.subset_cons_self _ _)) hR).bind ?_
      rintro after _ rfl
      exact .ok rfl
  | varRef name function next ih =>
      refine (h.shown List.mem_cons_self hR).bind ?_
      rintro text _ rfl
      refine (ih (h.mono (List.subset_cons_self _ _)) hR).bind ?_
      rintro after _ rfl
      exact .ok rfl
  | loop block body next ihBody ihNext =>
      have hbody : body.nodes ⊆ (Script.loop block body next).nodes :=
        fun n hn => by simp [Script.nodes, hn]
      have hnext : next.nodes ⊆ (Script.loop block body next).nodes :=
        fun n hn => by simp [Script.nodes, hn]
      refine (h.turns List.mem_cons_self hR).bind fun turns turns' hturns => ?_
      refine (Agrees.mapM hturns fun _ _ hturn => ihBody (h.mono hbody) hturn).bind ?_
      intro texts texts' htexts
      rw [List.forall₂_eq_eq_eq] at htexts
      subst htexts
      refine (ihNext (h.mono hnext) hR).bind ?_
      rintro after _ rfl
      exact .ok rfl

/-- **Renderings in step agree.**  A program out of balance has the same error in both. -/
theorem render {p : Program} (h : InStep excused strict strict' b b' R p.nodes)
    (hR : R [b.values] [b'.values]) :
    Agrees excused Eq (render strict p b) (CommentTemplate.render strict' p b') := by
  rcases p.script_or_unbalanced with ⟨t, rfl⟩ | ⟨block, hp⟩
  · rw [render_nodes, render_nodes]
    exact h.eval hR
  · rw [render_of_unbalanced hp, render_of_unbalanced hp]
    exact .error _

end InStep

/-! ## Scopes with other outermost scopes -/

/-- Scopes that are the same but for the outermost ones, which are `base` here and `base'` there. -/
def Over (base base' : List Scope) (scopes scopes' : List Scope) : Prop :=
  ∃ inner, scopes = inner ++ base ∧ scopes' = inner ++ base'

section Over

variable {excused : RenderError → Prop} {strict strict' : Bool} {b b' : Bindings}
  {base base' scopes scopes' : List Scope} {nodes : List Node}

theorem over_self (base base' : List Scope) : Over base base' base base' := ⟨[], rfl, rfl⟩

/-- One more scope makes no difference. -/
theorem Over.cons (h : Over base base' scopes scopes') (turn : Scope) :
    Over base base' (turn :: scopes) (turn :: scopes') := by
  obtain ⟨inner, rfl, rfl⟩ := h
  exact ⟨turn :: inner, rfl, rfl⟩

/-- Where only the outermost scopes differ, it is enough that loops have the same turns: these lead
to scopes that differ in the outermost ones again. -/
theorem inStep_over
    (hshown : ∀ name ∈ variableNames nodes, ∀ inner, Agrees excused Eq
      (showVariable strict name (inner ++ base)) (showVariable strict' name (inner ++ base')))
    (hturns : ∀ block, .loopOpen block ∈ nodes → ∀ inner,
      collection b block (inner ++ base) = collection b' block (inner ++ base')) :
    InStep excused strict strict' b b' (Over base base') nodes where
  shown := by
    rintro name function _ _ hn ⟨inner, rfl, rfl⟩
    exact hshown name (mem_variableNames.2 ⟨function, hn⟩) inner
  turns := by
    rintro block _ _ hn ⟨inner, rfl, rfl⟩
    refine agrees_of_eq (fun turns => ?_) (hturns block hn inner)
    have hover : Over base base' (inner ++ base) (inner ++ base') := ⟨inner, rfl, rfl⟩
    exact List.forall₂_same.2 fun turn _ => hover.cons turn

/-- **An evaluation depends on the outermost scopes only through variables and loops.**  If within
any further scopes each variable of a script shows the same and each loop has the same turns, the
outcome is the same. -/
theorem Script.eval_congr {t : Script}
    (hshown : ∀ name ∈ variableNames t.nodes, ∀ inner,
      showVariable strict name (inner ++ base) = showVariable strict' name (inner ++ base'))
    (hturns : ∀ block, .loopOpen block ∈ t.nodes → ∀ inner,
      collection b block (inner ++ base) = collection b' block (inner ++ base')) :
    t.eval strict b base = t.eval strict' b' base' := by
  have hstep : InStep (fun _ => False) strict strict' b b' (Over base base') t.nodes :=
    inStep_over (fun name hname inner => agrees_iff_eq.2 (hshown name hname inner)) hturns
  exact agrees_iff_eq.1 (hstep.eval (over_self _ _))

/-- The same for a program, with the values that hold everywhere as the outermost scope. -/
theorem render_congr {p : Program}
    (hshown : ∀ name ∈ variableNames p.nodes, ∀ inner, showVariable strict name
      (inner ++ [b.values]) = showVariable strict' name (inner ++ [b'.values]))
    (hturns : ∀ block, .loopOpen block ∈ p.nodes → ∀ inner,
      collection b block (inner ++ [b.values]) = collection b' block (inner ++ [b'.values])) :
    render strict p b = render strict' p b' := by
  have hstep : InStep (fun _ => False) strict strict' b b' (Over [b.values] [b'.values]) p.nodes :=
    inStep_over (fun name hname inner => agrees_iff_eq.2 (hshown name hname inner)) hturns
  exact agrees_iff_eq.1 (hstep.render (over_self _ _))

end Over

end CommentTemplate
