import Mathlib.Control.Monad.Basic
import CommentTemplate.Proofs.Compile.Stages
import CommentTemplate.Proofs.Program.Nested

/-!
# Compiled templates are well formed

The loops of a compiled template are properly nested, its literals are merged, nothing in it
belongs to a removed block, and its loops are among the blocks that were recorded.

## Main definitions

* `Compiled.WellFormed` — the properties that every compiled template has

## Main statements

* `closeNames_marks_sublist` — a loop that ends in the nodes of a forest has been recorded
* `compile_wellFormed` — every compiled template is well formed, and has all recorded blocks as
  loops where no block is replaced or removed

## Design decisions

**Markers only.**  Merging literals and expanding placeholders leave the markers alone, so what is
said about markers is proved of the forest written out and carried over by `markers_finish`.
-/

namespace CommentTemplate

/-! ## The names of closing markers -/

theorem closeNames_append (a b : List Node) :
    closeNames (a ++ b) = closeNames a ++ closeNames b := List.filterMap_append

@[simp] theorem closeNames_literal (t : Text) (nodes : List Node) :
    closeNames (.literal t :: nodes) = closeNames nodes := rfl

@[simp] theorem closeNames_loopOpen (block : Text) (nodes : List Node) :
    closeNames (.loopOpen block :: nodes) = closeNames nodes := rfl

@[simp] theorem closeNames_loopClose (block : Text) (nodes : List Node) :
    closeNames (.loopClose block :: nodes) = block :: closeNames nodes := rfl

/-- The names of the closing markers are those of the markers. -/
theorem closeNames_markers (nodes : List Node) : closeNames (markers nodes) = closeNames nodes := by
  rw [markers, closeNames, List.filterMap_filter]
  refine congrArg (List.filterMap · nodes) ?_
  funext n
  cases n <;> rfl

theorem closeNames_finish (nodes : List Node) : closeNames (finish nodes) = closeNames nodes := by
  rw [← closeNames_markers, markers_finish, closeNames_markers]

theorem mem_finish_iff {n : Node} (hn : n.isMarker = true) (nodes : List Node) :
    n ∈ finish nodes ↔ n ∈ nodes := by
  have hmarkers : ∀ ns, n ∈ markers ns ↔ n ∈ ns := by
    intro ns
    rw [markers, List.mem_filter, and_iff_left hn]
  rw [← hmarkers, markers_finish, hmarkers]

/-! ## The markers of a forest -/

namespace BlockRules

variable {rules : BlockRules} {name : Text} {body : List Node}

theorem nested_content (h : Nested body) : Nested (rules.content name body) := by
  unfold content
  cases rules.replacements.find? name with
  | none => exact h
  | some text => exact .literal text .nil

theorem nested_marks (h : Nested body) : Nested (rules.marks name body) := by
  unfold marks
  split
  · exact .nil
  · exact .loop name (nested_content h) .nil

/-- A block adds its own name to the closing markers of what it contains. -/
theorem closeNames_marks (rules : BlockRules) (name : Text) (body : List Node) :
    closeNames (rules.marks name body) =
      if rules.removals.contains name then []
      else closeNames (rules.content name body) ++ [name] := by
  unfold marks
  split
  · rfl
  · rw [closeNames_loopOpen, closeNames_append]
    rfl

theorem closeNames_content_sublist (rules : BlockRules) (name : Text) (body : List Node) :
    (closeNames (rules.content name body)).Sublist (closeNames body) := by
  unfold content
  cases rules.replacements.find? name with
  | none => exact List.Sublist.refl _
  | some text => exact List.nil_sublist _

end BlockRules

namespace Forest

variable {rules : BlockRules} {depth : Nat}

theorem nested_marks (rules : BlockRules) (depth : Nat) (f : Forest) :
    Nested (f.marks rules depth) := by
  induction f generalizing depth with
  | leaf t => exact .literal t .nil
  | tree before name opener body closer after ihBody ihAfter =>
      unfold marks
      split
      · exact .literal before ((BlockRules.nested_marks (ihBody _)).append (ihAfter _))
      · exact .literal _ .nil

/-- A removed block has no marker. -/
theorem not_mem_marks_of_removed {name : Text} (hname : rules.removals.contains name = true)
    {n : Node} (hn : n = .loopOpen name ∨ n = .loopClose name) (depth : Nat) (f : Forest) :
    n ∉ f.marks rules depth := by
  -- What is not a block adds literals only.
  have hliteral : ∀ t, n ≠ .literal t := by
    rintro t rfl
    simp at hn
  induction f generalizing depth with
  | leaf t => simp [marks, hliteral]
  | tree before block opener body closer after ihBody ihAfter =>
      unfold marks
      split
      · have hbody : n ∉ rules.content block (body.marks rules (depth + 1)) := by
          unfold BlockRules.content
          cases rules.replacements.find? block with
          | none => exact ihBody (depth + 1)
          | some text => simp [hliteral]
        have hblock : n ∉ rules.marks block (body.marks rules (depth + 1)) := by
          unfold BlockRules.marks
          split
          · exact List.not_mem_nil
          · next hkept =>
              -- The block is kept, so it has another name.
              have hne : name ≠ block := by
                rintro rfl
                exact hkept hname
              rcases hn with rfl | rfl <;> simp [hbody, hne]
        simp [hliteral, hblock, ihAfter]
      · simp [hliteral]

/-- **A loop that ends has been recorded**, in the same order.  Blocks in a replaced or removed
body are recorded without a loop. -/
theorem closeNames_marks_sublist (rules : BlockRules) (depth : Nat) (f : Forest) :
    (closeNames (f.marks rules depth)).Sublist (f.recorded rules depth) := by
  induction f generalizing depth with
  | leaf t => exact List.nil_sublist _
  | tree before name opener body closer after ihBody ihAfter =>
      by_cases hd : depth < rules.policy.limit
      · rw [marks, if_pos hd, closeNames_literal, closeNames_append, recorded_tree hd,
          ← List.append_assoc, BlockRules.closeNames_marks, BlockRules.record]
        -- The name of the block itself is on both sides or on neither.
        refine List.Sublist.append ?_ (ihAfter depth)
        split
        · exact List.nil_sublist _
        · exact ((rules.closeNames_content_sublist name _).trans (ihBody _)).append_right [name]
      · rw [marks, if_neg hd]
        exact List.nil_sublist _

/-- Where no block is replaced or removed, every recorded block is a loop. -/
theorem closeNames_marks_eq {f : Forest}
    (h : ∀ e ∈ f.postorder depth, e.2 < rules.policy.limit →
      rules.replacements.contains e.1 = false ∧ rules.removals.contains e.1 = false) :
    closeNames (f.marks rules depth) = f.recorded rules depth := by
  induction f generalizing depth with
  | leaf t => rfl
  | tree before name opener body closer after ihBody ihAfter =>
      by_cases hd : depth < rules.policy.limit
      · obtain ⟨hreplaced, hremoved⟩ := h (name, depth) (by simp) hd
        have hcontent : ∀ nodes, rules.content name nodes = nodes := by
          intro nodes
          rw [Dict.contains, Option.isSome_eq_false_iff, Option.isNone_iff_eq_none] at hreplaced
          rw [BlockRules.content, hreplaced]
        rw [marks, if_pos hd, closeNames_literal, closeNames_append, BlockRules.closeNames_marks,
          hcontent, ihBody fun e he => h e (by simp [he]), ihAfter fun e he => h e (by simp [he]),
          recorded_tree hd, BlockRules.record]
        simp [hremoved]
      · rw [marks, if_neg hd, recorded_of_le (Nat.not_lt.1 hd)]
        rfl

end Forest

/-! ## Every compiled template -/

/-- What holds of every compiled template: its loops are properly nested and it renders without a
complaint about them, its literals are merged, removed blocks are neither in it nor recorded, and
its loops end in the order in which their blocks were recorded. -/
structure Compiled.WellFormed (removals : NameSet) (r : Compiled) : Prop where
  /-- The markers pair up like brackets. -/
  nested : Nested r.program.nodes
  /-- No rendering finds a marker without a partner. -/
  balanced : ∀ strict b block, render strict r.program b ≠ .error (.unbalancedLoop block)
  /-- No literal is empty, and no two are side by side. -/
  normal : Normal r.program.nodes
  /-- No removed block opens a loop, closes one or is recorded. -/
  kept : ∀ name, removals.contains name = true → .loopOpen name ∉ r.program.nodes ∧
    .loopClose name ∉ r.program.nodes ∧ name ∉ r.blocks
  /-- The loops end in the order of the recorded blocks. -/
  recorded : (closeNames r.program.nodes).Sublist r.blocks

variable {s : Settings} {loader : Option Loader} {t : Text} {r : Compiled}

/-- A removed block is not recorded. -/
theorem Forest.not_mem_recorded {rules : BlockRules} {name : Text}
    (hname : rules.removals.contains name = true) (depth : Nat) (f : Forest) :
    name ∉ f.recorded rules depth := by
  intro h
  obtain ⟨e, he, rfl⟩ := List.mem_map.1 h
  simp [hname] at he

/-- **Every compiled template is well formed.**  Where moreover no block of the text left for the
blocks has a replacement or is removed, the loops that end are all the recorded blocks. -/
theorem compile_wellFormed (h : s.compile loader t = .ok r) :
    r.WellFormed s.removals ∧
    ∀ resolved stripped given, resolveIncludes loader s.config.policy t = .ok resolved →
      extractReplacements s.config.policy resolved = .ok (stripped, given) →
      (∀ e ∈ (blockDelimiter.forest stripped).postorder 0, e.2 < s.config.recursionLimit →
        (s.replacements.overriddenBy given).contains e.1 = false ∧
          s.removals.contains e.1 = false) →
      closeNames r.program.nodes = r.blocks := by
  obtain ⟨resolved, stripped, given, hres, hext, hnodes, hblocks⟩ := compiled_eq_of_ok h
  have hnested : Nested r.program.nodes := by
    rw [hnodes]
    exact nested_finish (Forest.nested_marks _ _ _)
  constructor
  · refine ⟨hnested, hnested.render_ne_unbalancedLoop, ?_, fun name hname => ⟨?_, ?_, ?_⟩, ?_⟩
    · rw [hnodes]
      exact normal_finish _
    · rw [hnodes, mem_finish_iff rfl]
      exact Forest.not_mem_marks_of_removed hname (.inl rfl) _ _
    · rw [hnodes, mem_finish_iff rfl]
      exact Forest.not_mem_marks_of_removed hname (.inr rfl) _ _
    · rw [hblocks]
      exact Forest.not_mem_recorded hname _ _
    · rw [hnodes, hblocks, closeNames_finish]
      exact Forest.closeNames_marks_sublist _ _ _
  · intro resolved' stripped' given' hres' hext' hplain
    obtain rfl : resolved = resolved' := Except.ok.inj (hres.symm.trans hres')
    have hpair : (stripped, given) = (stripped', given') := Except.ok.inj (hext.symm.trans hext')
    obtain ⟨rfl, rfl⟩ := Prod.mk.inj hpair
    rw [hnodes, hblocks, closeNames_finish]
    exact Forest.closeNames_marks_eq hplain

/-- A template with a block in a block, and a replacement for a block that it does not have. -/
def agenda : Text :=
  "<!-- REPLACE rest -->nap<!-- /REPLACE --><!-- BEGIN day -->{date}:".toList ++
    "<!-- [talk] --> {title}<!-- [/talk] --><!-- END day -->".toList

/-- Settings that remove a block which the agenda does not have. -/
def agendaSettings : Settings where
  config := Config.strictDefault
  removals := NameSet.insertAll Dict.empty ["break".toList]

/-- The agenda compiled. -/
def agendaProgram : Compiled where
  program := ⟨[.loopOpen "day".toList, .varRef "date".toList none, .literal ":".toList,
    .loopOpen "talk".toList, .literal " ".toList, .varRef "title".toList none,
    .loopClose "talk".toList, .loopClose "day".toList]⟩
  blocks := ["talk".toList, "day".toList]
  placeholders := ["date".toList, "title".toList]

/-- The compiled agenda is well formed, and its two loops are its recorded blocks. -/
theorem agendaProgram_wellFormed :
    agendaSettings.compile none agenda = .ok agendaProgram ∧
    agendaProgram.WellFormed agendaSettings.removals ∧
    closeNames agendaProgram.program.nodes = agendaProgram.blocks := by
  have hcompile : agendaSettings.compile none agenda = .ok agendaProgram := by decide +kernel
  obtain ⟨hwellFormed, hloops⟩ := compile_wellFormed hcompile
  refine ⟨hcompile, hwellFormed, ?_⟩
  have hres : resolveIncludes none agendaSettings.config.policy agenda = .ok agenda := by
    decide +kernel
  have hext : extractReplacements agendaSettings.config.policy agenda =
      .ok (agenda.drop 41, Dict.ofList [("rest".toList, "nap".toList)]) := by
    decide +kernel
  exact hloops agenda _ _ hres hext (by decide +kernel)

end CommentTemplate
