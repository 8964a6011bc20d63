import CommentTemplate.Proofs.Render.SideBySide

/-!
# Variables without a value

A strict rendering fails at a variable without a value, a lenient one writes nothing for it.  Apart
from that they are the same, in their texts as well as in their errors.  What a lenient rendering
does can therefore be had from a strict one: give every variable that has no value everywhere the
empty text.

## Main definitions

* `RenderError.IsUndefined` — the error of a variable without a value
* `Program.openVariables` — the variables of a program that the values leave open
* `Bindings.filled` — bindings with the empty text for these

## Main statements

* `agrees_strict_lenient` — a strict rendering is the lenient one, or stops at a variable
* `render_lenient_ne_undefined` — a lenient rendering does not
* `render_filled` — filled bindings make a strict rendering of a lenient one
* `render_strict_and_lenient` — all of it

## Design decisions

**Loops.**  The empty text is no collection.  So the variables that are filled must not be blocks
that the program loops over.
-/

namespace CommentTemplate

open Json (Scope)

/-- An error is that of a variable without a value. -/
def RenderError.IsUndefined (e : RenderError) : Prop := ∃ name, e = .undefinedVariable name

/-! ## Strict and lenient -/

/-- Within the same scopes, a variable shows the same or is an error that is excused. -/
theorem agrees_showVariable (name : Text) (scopes : List Scope) :
    Agrees RenderError.IsUndefined Eq (showVariable true name scopes)
      (showVariable false name scopes) := by
  rw [showVariable, showVariable]
  cases lookupScopes name scopes with
  | some v => exact .ok rfl
  | none => exact .pardon ⟨name, rfl⟩ _

/-- **A strict rendering is the lenient one**, or it stops at a variable without a value. -/
theorem agrees_strict_lenient (p : Program) (b : Bindings) :
    Agrees RenderError.IsUndefined Eq (render true p b) (render false p b) := by
  have hstep : InStep RenderError.IsUndefined true false b b (Over [b.values] [b.values]) p.nodes :=
    inStep_over (fun name _ inner => agrees_showVariable name _) fun _ _ _ => rfl
  exact hstep.render (over_self _ _)

/-- A lenient rendering does not stop at a variable without a value. -/
theorem render_lenient_ne_undefined (p : Program) (b : Bindings) (name : Text) :
    render false p b ≠ .error (.undefinedVariable name) := by
  intro h
  rcases p.script_or_unbalanced with ⟨t, rfl⟩ | ⟨block, hp⟩
  · rw [render_nodes] at h
    rcases Script.eval_eq_error h with ⟨hstrict, -⟩ | ⟨block, hblock⟩
    · cases hstrict
    · cases hblock
  · rw [render_of_unbalanced hp] at h
    cases h

/-! ## Filled bindings -/

/-- The scope in which some names stand for the empty text. -/
def blankScope (names : List Text) : Scope := Dict.ofList (names.map fun name => (name, .string []))

/-- The variables of a program without a value among those that hold everywhere. -/
def Program.openVariables (p : Program) (values : Scope) : List Text :=
  (variableNames p.nodes).filter fun name => !values.contains name

/-- The bindings with one more value, the empty text, for each variable of a program that has none
among those that hold everywhere. -/
def Bindings.filled (b : Bindings) (p : Program) : Bindings :=
  b.extendValues (blankScope (p.openVariables b.values))

theorem find?_blankScope (names : List Text) (name : Text) :
    (blankScope names).find? name = if name ∈ names then some (.string []) else none := by
  cases h : (blankScope names).find? name with
  | none =>
      have hname : name ∉ names := by
        intro hname
        have hbound : (blankScope names).contains name = true :=
          Dict.contains_ofList.2 ⟨_, List.mem_map_of_mem hname, rfl⟩
        simp [Dict.contains, h] at hbound
      rw [if_neg hname]
  | some v =>
      obtain ⟨name', hname, heq⟩ := List.mem_map.1 (Dict.mem_of_find?_ofList h)
      cases heq
      rw [if_pos hname]

section Filled

variable {p : Program} {b : Bindings} {name : Text}

theorem mem_openVariables {values : Scope} :
    name ∈ p.openVariables values ↔ name ∈ variableNames p.nodes ∧ values.find? name = none := by
  simp [Program.openVariables, Dict.contains]

/-- A variable without a value is filled. -/
theorem find?_filled_of_open (h : name ∈ p.openVariables b.values) :
    (b.filled p).values.find? name = some (.string []) := by
  rw [Bindings.filled, Bindings.extendValues, Dict.find?_overriddenBy, find?_blankScope,
    if_pos h, Option.some_or]

/-- Nothing else is filled. -/
theorem find?_filled_of_not_open (h : name ∉ p.openVariables b.values) :
    (b.filled p).values.find? name = b.values.find? name := by
  rw [Bindings.filled, Bindings.extendValues, Dict.find?_overriddenBy, find?_blankScope,
    if_neg h, Option.none_or]

/-- A variable of the program shows the same, leniently and strictly with filled bindings. -/
theorem showVariable_filled (hname : name ∈ variableNames p.nodes) (inner : List Scope) :
    showVariable false name (inner ++ [b.values]) =
      showVariable true name (inner ++ [(b.filled p).values]) := by
  rw [showVariable, showVariable, lookupScopes_concat, lookupScopes_concat]
  cases lookupScopes name inner with
  | some v => rfl
  | none =>
      by_cases hopen : name ∈ p.openVariables b.values
      · rw [find?_filled_of_open hopen, (mem_openVariables.1 hopen).2]
        rfl
      · rw [find?_filled_of_not_open hopen]
        cases h : b.values.find? name with
        | some v => rfl
        | none => exact absurd (mem_openVariables.2 ⟨hname, h⟩) hopen

/-- **Filled bindings make a strict rendering of a lenient one**, unless a loop is over a block that
was filled. -/
theorem render_filled (h : ∀ name ∈ p.openVariables b.values, name ∉ p.loops) :
    render false p b = render true p (b.filled p) := by
  refine render_congr (fun name hname inner => showVariable_filled hname inner)
    fun block hblock inner => collection_congr ?_ rfl
  have hopen : block ∉ p.openVariables b.values :=
    fun hopen => h block hopen (Program.mem_loops.2 hblock)
  rw [lookupScopes_concat, lookupScopes_concat, find?_filled_of_not_open hopen]

end Filled

/-! ## All of it -/

/-- **Strict and lenient renderings differ only at variables without a value.**  A strict text is
the lenient text; a lenient rendering never fails for want of a value; any other error of a strict
rendering is that of the lenient one.  If no variable that is left open by the values is a block of
a loop, the lenient rendering is the strict one with the empty text for these variables. -/
theorem render_strict_and_lenient (p : Program) (b : Bindings) :
    (∀ text, render true p b = .ok text → render false p b = .ok text) ∧
    (∀ name, render false p b ≠ .error (.undefinedVariable name)) ∧
    (∀ e : RenderError, ¬e.IsUndefined → render true p b = .error e →
      render false p b = .error e) ∧
    ((∀ name ∈ p.openVariables b.values, name ∉ p.loops) →
      render false p b = render true p (b.filled p)) := by
  have hagrees := agrees_strict_lenient p b
  refine ⟨fun text h => ?_, render_lenient_ne_undefined p b, fun e he h => ?_, render_filled⟩
  · rw [h] at hagrees
    generalize render false p b = outcome at hagrees
    cases hagrees with
    | ok htext => rw [htext]
  · rw [h] at hagrees
    generalize render false p b = outcome at hagrees
    cases hagrees with
    | error => rfl
    | pardon hundefined => exact absurd hundefined he

/-- The timetable has a cell without a value, and no end.  With the empty text for both it is
written strictly as it is leniently; and if its rows are a number, they are refused either way. -/
theorem render_openTimetable :
    (∀ name ∈ Program.openVariables ⟨timetable.nodes⟩ timetableBindings.values,
      name ∉ Program.loops ⟨timetable.nodes⟩) ∧
    render true ⟨timetable.nodes⟩ timetableBindings = .error (.undefinedVariable "v".toList) ∧
    render true ⟨timetable.nodes⟩ (timetableBindings.filled ⟨timetable.nodes⟩) =
      .ok "| 1: true   | 2: - | ".toList ∧
    render false ⟨timetable.nodes⟩ (timetableBindings.set "row".toList (.int 2)) =
      .error (.notACollection "row".toList) := by
  have hopen : ∀ name ∈ Program.openVariables ⟨timetable.nodes⟩ timetableBindings.values,
      name ∉ Program.loops ⟨timetable.nodes⟩ := by decide +kernel
  have hlenient : render false ⟨timetable.nodes⟩ timetableBindings =
      .ok "| 1: true   | 2: - | ".toList := by decide +kernel
  have hrow : render true ⟨timetable.nodes⟩ (timetableBindings.set "row".toList (.int 2)) =
      .error (.notACollection "row".toList) := by decide +kernel
  obtain ⟨-, -, -, hfilled⟩ := render_strict_and_lenient ⟨timetable.nodes⟩ timetableBindings
  obtain ⟨-, -, herror, -⟩ := render_strict_and_lenient ⟨timetable.nodes⟩
    (timetableBindings.set "row".toList (.int 2))
  refine ⟨hopen, by decide +kernel, (hfilled hopen).symm.trans hlenient, herror _ ?_ hrow⟩
  rintro ⟨name, h⟩
  cases h

end CommentTemplate
