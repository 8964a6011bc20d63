import Mathlib.Control.Monad.Basic
import CommentTemplate.Proofs.Compile.Stages
import CommentTemplate.Proofs.Render.Script

/-!
# Rendering a text without a program

A text can be rendered as it stands: its blocks are found one after the other, the body of each is
rendered once for every scope of its collection, and the placeholders between the blocks are
looked up on the way.  No program is built.  A compiled text renders to the same.

## Main definitions

* `showText` — a text with its placeholders replaced by their values
* `interpret` — a text with its blocks repeated and its placeholders replaced
* `Denotes` — nodes that are the flat form of a script with a given meaning

## Main statements

* `denotes_finish_marks` — the nodes of a forest mean what the interpreter makes of the text
* `render_compile_eq_interpret` — rendering a compiled text is interpreting the text

## Design decisions

**Meaning up to the flat form.**  The nodes of a compilation come out of joining and splitting
literals, and no script is at hand.  `Denotes` asks for one with the same flat form, so the
meaning is carried along with each operation on nodes.
-/

namespace CommentTemplate

open Json (Scope)

/-- A text with every placeholder replaced by its value. -/
def showText (strict : Bool) (scopes : List Scope) (s : Text) : Except RenderError Text := do
  let scan := placeholderTag.scan s
  let parts ← scan.found.mapM fun f => do
    let text ← showVariable strict f.tag.name scopes
    return f.before ++ text
  return parts.flatten ++ scan.tail

/-- A text that is nested in `depth` blocks, rendered within some scopes.  A block above the limit
is rendered once for every scope of its collection, from its replacement if it has one and from
its body otherwise; at the limit there are no blocks. -/
def interpret (strict : Bool) (b : Bindings) (replacements : Replacements) (limit depth : Nat)
    (s : Text) (scopes : List Scope) : Except RenderError Text :=
  match h : nextBlock s with
  | none => showText strict scopes s
  | some block =>
    have : block.body.length < s.length := nextPair_body_lt h
    have : block.after.length < s.length := nextPair_after_lt h
    if depth < limit then do
      let front ← showText strict scopes block.before
      let turns ← collection b block.name scopes
      let texts ← turns.mapM fun turn =>
        match replacements.find? block.name with
        | some text => showText strict (turn :: scopes) text
        | none => interpret strict b replacements limit (depth + 1) block.body (turn :: scopes)
      let back ← interpret strict b replacements limit depth block.after scopes
      return front ++ (texts.flatten ++ back)
    else showText strict scopes s
termination_by s.length

section Interpret

variable {strict : Bool} {b : Bindings} {replacements : Replacements} {limit depth : Nat}
  {s : Text} {block : TextPair} {scopes : List Scope}

theorem interpret_of_none (h : nextBlock s = none) :
    interpret strict b replacements limit depth s scopes = showText strict scopes s := by
  rw [interpret]
  split
  · rfl
  · simp_all

theorem interpret_of_le (hd : limit ≤ depth) :
    interpret strict b replacements limit depth s scopes = showText strict scopes s := by
  rw [interpret]
  split
  · rfl
  · rw [if_neg (Nat.not_lt.2 hd)]

/-- The meaning of what is repeated for a block. -/
def interpretBody (strict : Bool) (b : Bindings) (replacements : Replacements)
    (limit depth : Nat) (block : TextPair) (scopes : List Scope) : Except RenderError Text :=
  match replacements.find? block.name with
  | some text => showText strict scopes text
  | none => interpret strict b replacements limit (depth + 1) block.body scopes

theorem interpret_of_block (h : nextBlock s = some block) (hd : depth < limit) :
    interpret strict b replacements limit depth s scopes = do
      let front ← showText strict scopes block.before
      let turns ← collection b block.name scopes
      let texts ← turns.mapM fun turn =>
        interpretBody strict b replacements limit depth block (turn :: scopes)
      let back ← interpret strict b replacements limit depth block.after scopes
      return front ++ (texts.flatten ++ back) := by
  rw [interpret]
  split
  · simp_all
  · next p hp =>
      obtain rfl : block = p := Option.some.inj (h.symm.trans hp)
      rw [if_pos hd]
      rfl

end Interpret

/-! ## Text in a script -/

namespace Script

/-- Text in front of a script: part of its first literal, or a literal of its own. -/
def prepend (t : Text) : Script → Script
  | literal u next => if t = [] then literal u next else literal (t ++ u) next
  | next => if t = [] then next else literal t next

theorem nodes_prepend (t : Text) (next : Script) :
    (next.prepend t).nodes = prependLiteral t next.nodes := by
  by_cases ht : t = []
  · cases next <;> simp [prepend, ht]
  · cases next <;> simp [prepend, ht, nodes, prependLiteral]

theorem eval_prepend (strict : Bool) (b : Bindings) (t : Text) (next : Script)
    (scopes : List Scope) : (next.prepend t).eval strict b scopes = do
      let after ← next.eval strict b scopes
      return t ++ after := by
  by_cases ht : t = []
  · cases next <;> simp [prepend, ht]
  · cases next <;> simp [prepend, ht, eval]

/-- A scanned text as steps, in front of further ones. -/
def ofScan (scan : Scan Placeholder) (next : Script) : Script :=
  scan.found.foldr (fun f next => (varRef f.tag.name f.tag.function next).prepend f.before)
    (next.prepend scan.tail)

theorem nodes_ofScan (scan : Scan Placeholder) (next : Script) :
    (ofScan scan next).nodes = scanNodes scan next.nodes := by
  unfold ofScan scanNodes
  induction scan.found with
  | nil => exact nodes_prepend _ _
  | cons f fs ih =>
      rw [List.foldr_cons, nodes_prepend, nodes, ih]
      rfl

theorem eval_ofScan (strict : Bool) (b : Bindings) (scan : Scan Placeholder) (next : Script)
    (scopes : List Scope) : (ofScan scan next).eval strict b scopes = do
      let parts ← scan.found.mapM fun f => do
        let text ← showVariable strict f.tag.name scopes
        return f.before ++ text
      let after ← next.eval strict b scopes
      return parts.flatten ++ (scan.tail ++ after) := by
  unfold ofScan
  induction scan.found with
  | nil => simp [eval_prepend]
  | cons f fs ih => simp [eval_prepend, eval, ih]

end Script

/-! ## Nodes with a meaning -/

/-- Nodes that are the flat form of a script which evaluates to `f`. -/
def Denotes (strict : Bool) (b : Bindings) (nodes : List Node)
    (f : List Scope → Except RenderError Text) : Prop :=
  ∃ t : Script, t.nodes = nodes ∧ ∀ scopes, t.eval strict b scopes = f scopes

section Denotes

variable {strict : Bool} {b : Bindings} {nodes body : List Node}
  {f g : List Scope → Except RenderError Text}

theorem render_of_denotes (h : Denotes strict b nodes f) :
    render strict ⟨nodes⟩ b = f [b.values] := by
  obtain ⟨t, rfl, ht⟩ := h
  rw [render_nodes, ht]

theorem Denotes.congr (h : Denotes strict b nodes f) (hfg : ∀ scopes, f scopes = g scopes) :
    Denotes strict b nodes g := by
  obtain ⟨t, ht, heval⟩ := h
  exact ⟨t, ht, fun scopes => (heval scopes).trans (hfg scopes)⟩

theorem denotes_nil : Denotes strict b [] fun _ => pure [] := ⟨.done, rfl, fun _ => rfl⟩

/-- The placeholders of a text in front mean the text with its placeholders shown. -/
theorem denotes_placeholderNodes (t : Text) (h : Denotes strict b nodes f) :
    Denotes strict b (placeholderNodes t nodes) fun scopes => do
      let text ← showText strict scopes t
      let after ← f scopes
      return text ++ after := by
  obtain ⟨next, rfl, hnext⟩ := h
  refine ⟨.ofScan (placeholderTag.scan t) next, Script.nodes_ofScan _ _, fun scopes => ?_⟩
  rw [Script.eval_ofScan]
  simp only [showText, hnext, bind_assoc, pure_bind, List.append_assoc]

/-- The placeholders of a text alone mean the text with its placeholders shown. -/
theorem denotes_placeholderNodes_nil (t : Text) :
    Denotes strict b (placeholderNodes t []) fun scopes => showText strict scopes t := by
  obtain ⟨next, hnodes, hnext⟩ : Denotes strict b (placeholderNodes t []) _ :=
    denotes_placeholderNodes t denotes_nil
  refine ⟨next, hnodes, fun scopes => ?_⟩
  rw [hnext]
  simp

theorem denotes_loop (block : Text) (hbody : Denotes strict b body f)
    (hnext : Denotes strict b nodes g) :
    Denotes strict b (.loopOpen block :: (body ++ .loopClose block :: nodes)) fun scopes => do
      let turns ← collection b block scopes
      let texts ← turns.mapM fun turn => f (turn :: scopes)
      let after ← g scopes
      return texts.flatten ++ after := by
  obtain ⟨t, rfl, ht⟩ := hbody
  obtain ⟨next, rfl, hnext⟩ := hnext
  refine ⟨.loop block t next, rfl, fun scopes => ?_⟩
  simp only [Script.eval, ht, hnext]

end Denotes

/-! ## A compiled text means what the interpreter makes of it -/

variable {strict : Bool} {b : Bindings} {rules : BlockRules}

/-- The nodes of a block that is not removed, between the text before it and what follows it. -/
theorem finish_block {name : Text} (hname : rules.removals.contains name = false) (before : Text)
    (body after : List Node) :
    finish (.literal before :: (rules.marks name body ++ after)) =
      placeholderNodes before (.loopOpen name ::
        (finish (rules.content name body) ++ .loopClose name :: finish after)) := by
  have hmarks : .literal before :: (rules.marks name body ++ after) =
      [.literal before] ++ .loopOpen name ::
        (rules.content name body ++ .loopClose name :: after) := by
    simp [BlockRules.marks, hname]
  -- Both markers cut the sequence, so the three parts between them are finished on their own.
  rw [hmarks, finish_behind rfl, finish_behind rfl, finish_literal]
  exact (placeholderNodes_behind rfl before [] _).symm

/-- What stands between the markers of a block means what the interpreter repeats for it. -/
theorem denotes_content {depth : Nat} {block : TextPair} {body : List Node}
    (h : Denotes strict b (finish body)
      (interpret strict b rules.replacements rules.policy.limit (depth + 1) block.body)) :
    Denotes strict b (finish (rules.content block.name body))
      (interpretBody strict b rules.replacements rules.policy.limit depth block) := by
  unfold BlockRules.content interpretBody
  cases rules.replacements.find? block.name with
  | none => exact h
  | some text =>
      rw [finish_literal]
      exact denotes_placeholderNodes_nil text

/-- **The nodes of a forest mean what the interpreter makes of the text**, unless a block of it is
removed: a removed block lets the texts around it grow together, and a placeholder may arise that
neither of them has. -/
theorem denotes_finish_marks {depth : Nat} {s : Text}
    (hremovals : ∀ e ∈ (blockDelimiter.forest s).postorder depth, e.2 < rules.policy.limit →
      rules.removals.contains e.1 = false) :
    Denotes strict b (finish ((blockDelimiter.forest s).marks rules depth))
      (interpret strict b rules.replacements rules.policy.limit depth s) := by
  induction s using nextPair_induction blockDelimiter generalizing depth with
  | leaf s hs =>
      rw [Recognizer.forest_of_nextPair_none hs, Forest.marks, finish_literal]
      exact (denotes_placeholderNodes_nil s).congr fun _ => (interpret_of_none hs).symm
  | tree s p hs ihBody ihAfter =>
      have hforest := Recognizer.forest_of_nextPair closed_blockDelimiter hs
      by_cases hd : depth < rules.policy.limit
      · rw [hforest] at hremovals ⊢
        have hname := hremovals (p.name, depth) (by simp) hd
        have hbody := @ihBody (depth + 1) fun e he => hremovals e (by simp [he])
        have hafter := @ihAfter depth fun e he => hremovals e (by simp [he])
        rw [Forest.marks, if_pos hd, finish_block hname]
        refine (denotes_placeholderNodes p.before
          (denotes_loop p.name (denotes_content hbody) hafter)).congr fun scopes => ?_
        rw [interpret_of_block hs hd]
        simp only [bind_assoc, pure_bind]
      · -- At the limit there are only the placeholders of the whole text.
        have hle : rules.policy.limit ≤ depth := Nat.not_lt.1 hd
        rw [finish, Forest.joinNodes_marks_of_le hle, Recognizer.text_forest]
        have hnodes : expandPlaceholders (literalNodes s) = placeholderNodes s [] := by
          rw [← finish_literal]
          rfl
        rw [hnodes]
        exact (denotes_placeholderNodes_nil s).congr fun _ => (interpret_of_le hle).symm

/-- **Compilation keeps the meaning of a text.**  A text without include tags and without a
complete replacement tag, none of whose blocks is removed, is compiled to a program that renders
to what the interpreter makes of the text itself: the same text, or the same error. -/
theorem render_compile_eq_interpret {s : Settings} {loader : Option Loader} {t : Text}
    {r : Compiled} (hincludes : includedPaths t = []) (hreplace : nextReplace t = none)
    (hremovals : ∀ e ∈ (blockDelimiter.forest t).postorder 0, e.2 < s.config.recursionLimit →
      s.removals.contains e.1 = false)
    (h : s.compile loader t = .ok r) (strict : Bool) (b : Bindings) :
    render strict r.program b =
      interpret strict b s.replacements s.config.recursionLimit 0 t [b.values] := by
  obtain ⟨resolved, stripped, given, hres, hext, hnodes, -⟩ := compiled_eq_of_ok h
  rw [resolveIncludes_of_no_tag hincludes, Except.ok.injEq] at hres
  subst hres
  rw [extractReplacements_of_no_tag hreplace, Except.ok.injEq, Prod.mk.injEq] at hext
  obtain ⟨rfl, rfl⟩ := hext
  have hdenotes : Denotes strict b r.program.nodes
      (interpret strict b s.replacements s.config.recursionLimit 0 t) := by
    rw [hnodes]
    exact denotes_finish_marks hremovals
  exact render_of_denotes hdenotes

/-- A template with a block in a block, placeholders inside and outside of them. -/
def guestList : Text :=
  "Dear {host}: <!-- BEGIN guest -->{name}<!-- [dish] -->none<!-- [/dish] -->, ".toList ++
    "<!-- END guest -->{ps}".toList

/-- Settings that replace the inner block of the guest list. -/
def guestSettings : Settings where
  replacements := Dict.ofList [("dish".toList, " and {dish} for {name}".toList)]

/-- The guest list compiled under these settings. -/
def guestProgram : Compiled where
  program := ⟨expandPlaceholders [.literal "Dear {host}: ".toList, .loopOpen "guest".toList,
    .literal "{name}".toList, .loopOpen "dish".toList, .literal " and {dish} for {name}".toList,
    .loopClose "dish".toList, .literal ", ".toList, .loopClose "guest".toList,
    .literal "{ps}".toList]⟩
  blocks := ["dish".toList, "guest".toList]
  placeholders := ["host".toList, "name".toList, "dish".toList, "name".toList, "ps".toList]

/-- Two guests, of whom the first has two dishes and the second leaves it to the host. -/
def guestBindings : Bindings where
  values := Dict.ofList [("host".toList, .string "Ada".toList)]
  blocks := Dict.ofList [
    ("guest".toList, [
      Dict.ofList [("name".toList, .string "Bo".toList), ("dish".toList, .array [
        .object [("dish".toList, .int 1)], .object [("dish".toList, .string "pie".toList)]])],
      Dict.ofList [("name".toList, .string "Cy".toList)]]),
    ("dish".toList, [Dict.ofList [("dish".toList, .string "soup".toList)]])]

/-- The guest list renders to what the interpreter makes of it, without the missing postscript. -/
theorem render_guestList :
    guestSettings.compile none guestList = .ok guestProgram ∧
    interpret false guestBindings guestSettings.replacements 10 0 guestList
      [guestBindings.values] = .ok
        "Dear Ada: Bo and 1 for Bo and pie for Bo, Cy and soup for Cy, ".toList ∧
    render false guestProgram.program guestBindings =
      interpret false guestBindings guestSettings.replacements 10 0 guestList
        [guestBindings.values] := by
  have hincludes : includedPaths guestList = [] := by decide +kernel
  have hreplace : nextReplace guestList = none := by decide +kernel
  have hremovals : ∀ e ∈ (blockDelimiter.forest guestList).postorder 0,
      e.2 < guestSettings.config.recursionLimit → guestSettings.removals.contains e.1 = false := by
    decide +kernel
  have hcompile : guestSettings.compile none guestList = .ok guestProgram := by decide +kernel
  exact ⟨hcompile, by decide +kernel, render_compile_eq_interpret hincludes hreplace hremovals
    hcompile false guestBindings⟩

end CommentTemplate
