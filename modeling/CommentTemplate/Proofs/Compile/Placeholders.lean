import Mathlib.Control.Monad.Basic
import CommentTemplate.Proofs.Compile.Stages

/-!
# No placeholder survives a compilation

The last stage of a compilation splits every literal around its placeholders.  What is left between
them has none, and literals are merged before the split and not after it, so none arises later.
The names that a compilation reports are those of the variable references of its program.

## Main definitions

* `Settled` — nodes without a placeholder in their literals
* `variableNames` — the names of the variable references among some nodes

## Main statements

* `settled_expandPlaceholders` — expanded nodes are settled, if their literals were merged before
* `expandPlaceholders_of_settled` — settled nodes are expanded to themselves
* `variableNames_expandPlaceholders` — every placeholder is one variable reference
* `placeholders_of_compile` — all of this for compiled templates

## Design decisions

**Merged first.**  `Normal` is needed: the literals `\x7b` and `a\x7d` side by side have no
placeholder, and merged they are one.  Blocks leave normal nodes behind, also where one was removed.
-/

namespace CommentTemplate

/-- Nodes none of whose literals has a placeholder. -/
def Settled (nodes : List Node) : Prop :=
  ∀ u, .literal u ∈ nodes → (placeholderTag.scan u).found = []

/-- The names of the variable references among some nodes, in order. -/
def variableNames (nodes : List Node) : List Text :=
  nodes.filterMap fun
    | .varRef name _ => some name
    | _ => none

/-- Nodes that do not begin with a literal. -/
def NoLiteralFirst (nodes : List Node) : Prop := ∀ u, nodes.head? ≠ some (.literal u)

/-! ## Literals in front -/

section Literals

variable {nodes : List Node} {t : Text}

theorem prependLiteral_of_noLiteralFirst (h : NoLiteralFirst nodes) (ht : t ≠ []) :
    prependLiteral t nodes = .literal t :: nodes := by
  rcases nodes with _ | ⟨_ | _ | _ | _, nodes⟩
  case cons.literal u => exact absurd rfl (h u)
  all_goals simp [prependLiteral, ht]

theorem settled_prependLiteral (ht : (placeholderTag.scan t).found = []) (h : Settled nodes)
    (hfirst : NoLiteralFirst nodes) : Settled (prependLiteral t nodes) := by
  by_cases hempty : t = []
  · rw [hempty, prependLiteral_empty]
    exact h
  · rw [prependLiteral_of_noLiteralFirst hfirst hempty]
    intro u hu
    rcases List.mem_cons.1 hu with heq | hu
    · cases heq
      exact ht
    · exact h u hu

@[simp] theorem variableNames_prependLiteral (t : Text) (nodes : List Node) :
    variableNames (prependLiteral t nodes) = variableNames nodes := by
  by_cases ht : t = []
  · rw [ht, prependLiteral_empty]
  · rcases nodes with _ | ⟨_ | _ | _ | _, nodes⟩ <;> simp [prependLiteral, ht, variableNames]

end Literals

/-! ## One literal -/

/-- A text without placeholders is one literal. -/
theorem placeholderNodes_of_found_nil {t : Text} (h : (placeholderTag.scan t).found = [])
    (nodes : List Node) : placeholderNodes t nodes = prependLiteral t nodes := by
  rw [placeholderNodes, Recognizer.scan_eq_of_found_nil h]
  rfl

/-- **A split text has no placeholder left**: it was cut at each of them, and the pieces are not put
together again. -/
theorem settled_placeholderNodes (t : Text) {nodes : List Node} (h : Settled nodes)
    (hfirst : NoLiteralFirst nodes) : Settled (placeholderNodes t nodes) := by
  have hbetween : ∀ f ∈ (placeholderTag.scan t).found, (placeholderTag.scan f.before).found = [] :=
    fun f hf => by rw [Recognizer.scan_between closed_placeholderTag hf]
  have htail : (placeholderTag.scan (placeholderTag.scan t).tail).found = [] := by
    rw [Recognizer.scan_tail]
  unfold placeholderNodes scanNodes
  generalize (placeholderTag.scan t).found = found at hbetween ⊢
  induction found with
  | nil => exact settled_prependLiteral htail h hfirst
  | cons f fs ih =>
      have hfs := ih fun g hg => hbetween g (List.mem_cons_of_mem f hg)
      rw [List.foldr_cons]
      refine settled_prependLiteral (hbetween f List.mem_cons_self) (fun u hu => ?_) fun u hu => ?_
      · rcases List.mem_cons.1 hu with heq | hu
        · cases heq
        · exact hfs u hu
      · cases hu

theorem variableNames_placeholderNodes (t : Text) (nodes : List Node) :
    variableNames (placeholderNodes t nodes) = placeholderNames t ++ variableNames nodes := by
  unfold placeholderNodes placeholderNames scanNodes
  induction (placeholderTag.scan t).found with
  | nil => exact variableNames_prependLiteral _ _
  | cons f fs ih =>
      rw [List.foldr_cons, variableNames_prependLiteral, List.map_cons, List.cons_append, ← ih]
      rfl

/-! ## All nodes -/

variable {nodes : List Node}

/-- What did not begin with a literal does not begin with one when it is expanded. -/
theorem noLiteralFirst_expandPlaceholders (h : NoLiteralFirst nodes) :
    NoLiteralFirst (expandPlaceholders nodes) := by
  rcases nodes with _ | ⟨_ | _ | _ | _, nodes⟩
  case cons.literal u => exact absurd rfl (h u)
  all_goals
    intro u hu
    cases hu

/-- **Expanded nodes are settled.** -/
theorem settled_expandPlaceholders (h : Normal nodes) : Settled (expandPlaceholders nodes) := by
  induction nodes with
  | nil => exact fun u hu => absurd hu List.not_mem_nil
  | cons n nodes ih =>
      cases n with
      | literal t =>
          obtain ⟨-, hfirst, hnodes⟩ := h
          exact settled_placeholderNodes t (ih hnodes) (noLiteralFirst_expandPlaceholders hfirst)
      | loopOpen block | loopClose block | varRef name function =>
          intro u hu
          rcases List.mem_cons.1 hu with heq | hu
          · cases heq
          · exact ih h u hu

/-- **Settled nodes are expanded to themselves**, and there is nothing to report. -/
theorem expandPlaceholders_of_settled (hsettled : Settled nodes) (h : Normal nodes) :
    expandPlaceholders nodes = nodes ∧ placeholdersOf nodes = [] := by
  induction nodes with
  | nil => exact ⟨rfl, rfl⟩
  | cons n nodes ih =>
      have hnodes : Settled nodes := fun u hu => hsettled u (List.mem_cons_of_mem n hu)
      cases n with
      | literal t =>
          obtain ⟨ht, hfirst, hnormal⟩ := h
          obtain ⟨hsame, hnone⟩ := ih hnodes hnormal
          have hfound := hsettled t List.mem_cons_self
          constructor
          · rw [expandPlaceholders, hsame, placeholderNodes_of_found_nil hfound,
              prependLiteral_of_noLiteralFirst hfirst ht]
          · change placeholderNames t ++ placeholdersOf nodes = []
            rw [placeholderNames, hfound, hnone]
            rfl
      | loopOpen block | loopClose block | varRef name function =>
          obtain ⟨hsame, hnone⟩ := ih hnodes h
          exact ⟨by simp [expandPlaceholders, hsame], hnone⟩

/-- **Every placeholder becomes one variable reference**, in the order of the text. -/
theorem variableNames_expandPlaceholders (h : variableNames nodes = []) :
    variableNames (expandPlaceholders nodes) = placeholdersOf nodes := by
  induction nodes with
  | nil => rfl
  | cons n nodes ih =>
      cases n with
      | literal t =>
          rw [expandPlaceholders, variableNames_placeholderNodes, ih h]
          rfl
      | loopOpen block | loopClose block => exact ih h
      | varRef name function => cases h

/-! ## The nodes of blocks -/

theorem variableNames_append (a b : List Node) :
    variableNames (a ++ b) = variableNames a ++ variableNames b :=
  List.filterMap_append

theorem variableNames_joinNodes (a back : List Node) :
    variableNames (joinNodes a back) = variableNames a ++ variableNames back := by
  induction a with
  | nil => rfl
  | cons n a ih =>
      cases n with
      | literal t => rw [joinNodes_literal, variableNames_prependLiteral, ih]; rfl
      | loopOpen block | loopClose block => exact ih
      | varRef name function => exact congrArg (name :: ·) ih

/-- Blocks make no variable references. -/
theorem variableNames_marks (rules : BlockRules) (depth : Nat) (f : Forest) :
    variableNames (f.marks rules depth) = [] := by
  induction f generalizing depth with
  | leaf t => rfl
  | tree before name opener body closer after ihBody ihAfter =>
      have hcontent : variableNames (rules.content name (body.marks rules (depth + 1))) = [] := by
        unfold BlockRules.content
        cases rules.replacements.find? name with
        | none => exact ihBody (depth + 1)
        | some text => rfl
      have hblock : variableNames (rules.marks name (body.marks rules (depth + 1))) = [] := by
        unfold BlockRules.marks
        split
        · rfl
        · exact (variableNames_append _ _).trans (by rw [hcontent]; rfl)
      unfold Forest.marks
      split
      · exact (variableNames_append _ _).trans (by rw [hblock, ihAfter]; rfl)
      · rfl

/-- **No placeholder survives a compilation, and each is reported once.**  No literal of a compiled
template has a placeholder, so the expansion of its nodes gives the same nodes again and reports
nothing; and the reported names are those of its variable references, in order. -/
theorem placeholders_of_compile {s : Settings} {loader : Option Loader} {t : Text} {r : Compiled}
    (h : s.compile loader t = .ok r) :
    (∀ u, .literal u ∈ r.program.nodes → (placeholderTag.scan u).found = []) ∧
    expandPlaceholders r.program.nodes = r.program.nodes ∧
    placeholdersOf r.program.nodes = [] ∧
    r.placeholders = variableNames r.program.nodes := by
  obtain ⟨resolved, stripped, given, nodes, -, -, hnodes, rfl⟩ := compile_eq_ok_iff.1 h
  have hjoined : joinNodes ((blockDelimiter.forest stripped).marks (s.blockRules given) 0) [] =
      nodes := by
    rw [expandBlocks, expandBlocksAt_eq_of_ok hnodes] at hnodes
    exact Except.ok.inj hnodes
  have hnormal : Normal nodes := hjoined ▸ normal_joinNodes _ trivial
  have hvariables : variableNames nodes = [] := by
    rw [← hjoined, variableNames_joinNodes, variableNames_marks]
    rfl
  have hsettled := settled_expandPlaceholders hnormal
  obtain ⟨hsame, hnone⟩ :=
    expandPlaceholders_of_settled hsettled (normal_expandPlaceholders nodes)
  exact ⟨hsettled, hsame, hnone, (variableNames_expandPlaceholders hvariables).symm⟩

/-- A letter with variables from an include, from a replacement tag and from the settings, and with
a removed block inside the braces of another one. -/
def letter : Text :=
  "<!-- INCLUDE head -->\x7b<!-- [cut] -->\x7bx\x7d<!-- [/cut] -->name\x7d".toList ++
    "<!-- [body] --><!-- [/body] -->".toList ++
    "<!-- [foot] --><!-- [/foot] --><!-- REPLACE body -->{line:wrap}<!-- /REPLACE -->".toList

/-- The settings of the letter. -/
def letterSettings : Settings where
  replacements := Dict.ofList [("foot".toList, "{{date}}".toList)]
  removals := NameSet.ofList ["cut".toList]

/-- The source that the letter includes. -/
def letterSources : Sources := Dict.ofList [("head".toList, .ok "Dear {name}, ".toList)]

/-- The letter compiled. -/
def letterCompiled : Compiled where
  program := ⟨[.literal "Dear ".toList, .varRef "name".toList none, .literal ", ".toList,
    .varRef "name".toList none, .loopOpen "body".toList,
    .varRef "line".toList (some "wrap".toList), .loopClose "body".toList, .loopOpen "foot".toList,
    .literal "\x7b".toList, .varRef "date".toList none, .literal "\x7d".toList,
    .loopClose "foot".toList]⟩
  blocks := ["body".toList, "foot".toList]
  placeholders := ["name".toList, "name".toList, "line".toList, "date".toList]

/-- No placeholder is left in the compiled letter, and its variables are those reported. -/
theorem placeholders_letter :
    letterSettings.compile (some (.ofSources letterSources)) letter = .ok letterCompiled ∧
    expandPlaceholders letterCompiled.program.nodes = letterCompiled.program.nodes ∧
    placeholdersOf letterCompiled.program.nodes = [] ∧
    letterCompiled.placeholders = variableNames letterCompiled.program.nodes := by
  have hcompile : letterSettings.compile (some (.ofSources letterSources)) letter =
      .ok letterCompiled := by decide +kernel
  exact ⟨hcompile, (placeholders_of_compile hcompile).2⟩

end CommentTemplate
