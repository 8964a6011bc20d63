import CommentTemplate.Proofs.CommandLine.Report

/-!
# What the exit status tells

A run that ends with status 2 has compiled or rendered a template and failed, as long as its
arguments are understood.  The failure is printed then, and all other failures have status 1.
Arguments that are not understood end a run with status 2 as well.  Nothing is printed then, and no
template is compiled.

## Main definitions

* `Invocation.Breaks` — the template of a run cannot be compiled, or its program not rendered

## Main statements

* `Invocation.breaks_iff` — a template breaks in the last two steps of a run
* `Invocation.run_of_fails` — the first failure ends the run with the status of its step
* `runProgram_status` — what the exit status tells about arguments that are understood
* `runProgram_namelessReplacement` — arguments that are not, and a status that tells otherwise
-/

namespace CommentTemplate

namespace Invocation

variable {i : Invocation} {view : FileView} {words : Text}

/-- The template of a run is compiled and fails, or its program is rendered and fails, with the
words for the error. -/
inductive Breaks (i : Invocation) (view : FileView) : Text → Prop where
  | compilation {config : Config} {e : CompileError}
      (hclear : i.Clear view Step.compilation.number)
      (hcompile : i.Compiles view config (.error e)) : Breaks i view e.message
  | rendering {file document : Text} {config : Config} {bindings : Bindings} {r : Compiled}
      {e : RenderError} (hclear : i.Clear view Step.rendering.number)
      (h : i.command = .render file document) (hparse : Bindings.parse document = .ok bindings)
      (hcompile : i.Compiles view config (.ok r))
      (hrender : render config.strict r.program bindings = .error e) : Breaks i view e.message

/-- A template breaks exactly if a step with the exit status 2 is the first to fail. -/
theorem breaks_iff : i.Breaks view words ↔
    ∃ step : Step, step.exit = 2 ∧ i.Clear view step.number ∧ i.Fails view step words := by
  constructor
  · rintro (⟨hclear, hcompile⟩ | ⟨hclear, h, hparse, hcompile, hrender⟩)
    · exact ⟨.compilation, rfl, hclear, .compilation hcompile⟩
    · exact ⟨.rendering, rfl, hclear, .rendering h hparse hcompile hrender⟩
  · rintro ⟨step, hexit, hclear, hfails⟩
    cases hfails with
    | compilation hcompile => exact .compilation hclear hcompile
    | rendering h hparse hcompile hrender => exact .rendering hclear h hparse hcompile hrender
    | _ => cases hexit

/-- The first failure is all that a run leaves. -/
theorem run_of_fails {step : Step} (hclear : i.Clear view step.number)
    (h : i.Fails view step words) : i.run view = .failure step.exit words := by
  have hreaches : i.Reaches view 6 (i.Prints view) (i.result view) := i.reaches_result
  rw [run]
  generalize i.result view = result at hreaches
  cases hreaches with
  | value hall => exact absurd h (hall step (by cases step <;> decide) words)
  | failure hclear' h' =>
      obtain ⟨rfl, rfl⟩ := h.unique_first hclear hclear' h'
      rfl

/-- A run that does not succeed leaves its first failure. -/
theorem exists_fails_of_exit (i : Invocation) (view : FileView) (h : (i.run view).exit ≠ 0) :
    ∃ step words, i.Clear view step.number ∧ i.Fails view step words ∧
      i.run view = .failure step.exit words := by
  have hreaches : i.Reaches view 6 (i.Prints view) (i.result view) := i.reaches_result
  rw [run] at h ⊢
  generalize i.result view = result at h hreaches
  cases hreaches with
  | value => exact absurd rfl h
  | failure hclear hfails => exact ⟨_, _, hclear, hfails, rfl⟩

end Invocation

/-- **Status 2 tells of a broken template** where the arguments are understood: the run ends with it
exactly if the template cannot be compiled or rendered, and prints that error then.  The failures of
the steps before end the run with status 1. -/
theorem runProgram_status {as : List Text} {i : Invocation}
    (hargs : Invocation.ofArguments as = .ok i) (view : FileView) :
    ((runProgram view as).exit = 2 ↔ ∃ words, i.Breaks view words) ∧
    (∀ words, i.Breaks view words → runProgram view as = .failure 2 words) ∧
    ∀ (step : Step) (words : Text), step.number < Step.compilation.number →
      i.Clear view step.number → i.Fails view step words →
        runProgram view as = .failure 1 words := by
  have hrun : runProgram view as = i.run view := by rw [runProgram, hargs]
  have hbreaks (words : Text) (h : i.Breaks view words) :
      runProgram view as = .failure 2 words := by
    obtain ⟨step, hexit, hclear, hfails⟩ := Invocation.breaks_iff.1 h
    rw [hrun, Invocation.run_of_fails hclear hfails, hexit]
  refine ⟨⟨fun hexit => ?_, ?_⟩, hbreaks, fun step words hearly hclear hfails => ?_⟩
  · rw [hrun] at hexit
    obtain ⟨step, words, hclear, hfails, houtput⟩ :=
      i.exists_fails_of_exit view (by rw [hexit]; decide)
    rw [houtput] at hexit
    exact ⟨words, Invocation.breaks_iff.2 ⟨step, hexit, hclear, hfails⟩⟩
  · rintro ⟨words, h⟩
    rw [hbreaks words h]
    rfl
  · rw [hrun, Invocation.run_of_fails hclear hfails]
    cases step <;> first | rfl | exact absurd hearly (by decide)

/-- A letter with a variable in it. -/
def letterTree : FileTree where
  cwd := ["home".toList]
  dirs := []
  files := [(["home".toList, "letter".toList], encodeUtf8 "Dear {NAME}".toList)]

/-- A strict run breaks at the variable, which has no value. -/
theorem runProgram_letter :
    let i : Invocation := ⟨true, false, none, none, .render "letter".toList ['{', '}']⟩
    let as := ["render".toList, "letter".toList, "--strict".toList]
    Invocation.ofArguments as = .ok i ∧
    runProgram letterTree.status as =
      .failure 2 (RenderError.undefinedVariable "NAME".toList).message ∧
    ∃ words, i.Breaks letterTree.status words ∧
      runProgram letterTree.status as = .failure 2 words := by
  intro i as
  have hargs : Invocation.ofArguments as = .ok i := by decide +kernel
  have houtput : runProgram letterTree.status as =
      .failure 2 (RenderError.undefinedVariable "NAME".toList).message := by
    decide +kernel
  obtain ⟨hstatus, hprinted, -⟩ := runProgram_status hargs letterTree.status
  obtain ⟨words, hbreaks⟩ := hstatus.1 (by rw [houtput]; rfl)
  exact ⟨hargs, houtput, words, hbreaks, hprinted words hbreaks⟩

/-- **The status alone can tell otherwise.**  A replacement without a name is a mistake in the
arguments, of which nothing is printed, and the status is that of a broken template. -/
theorem runProgram_namelessReplacement :
    let as := ["compile".toList, "letter".toList, "--replace".toList, "=x".toList]
    Invocation.ofArguments as = .error (.invalidValue "replace".toList "=x".toList) ∧
    ∀ view, runProgram view as = ⟨2, []⟩ ∧ ∀ words, runProgram view as ≠ .failure 2 words := by
  intro as
  have hargs : Invocation.ofArguments as =
      .error (.invalidValue "replace".toList "=x".toList) := by
    decide +kernel
  refine ⟨hargs, fun view => ?_⟩
  have hnothing : runProgram view as = ⟨2, []⟩ := by rw [runProgram, hargs]
  refine ⟨hnothing, fun words hwords => ?_⟩
  rw [hnothing] at hwords
  simp [Output.failure, Output.json] at hwords

end CommentTemplate
