import Mathlib.Control.Monad.Basic
import CommentTemplate.CommandLine.Run
import CommentTemplate.Proofs.Outcome

/-!
# What a run reports

A command is run in at most six steps, in a fixed order.  Each of them uses the library on what the
steps before it gave.  The run prints the result of the last one and ends with status 0, or it
prints nothing but the first failure, with the status that belongs to the step.

## Main definitions

* `Step`, `Step.number`, `Step.exit` — the steps of a run, their order, and their exit statuses
* `Invocation.Configured`, `Invocation.Compiles` — the configuration of a run, and what the
  compilation of its template gives
* `Invocation.Fails`, `Invocation.Prints` — what can go wrong in a step, and what is printed if
  nothing does
* `Invocation.Reports` — the output of a run, as the failures and results of its steps tell
* `Invocation.Clear`, `Invocation.Reaches` — no step before some number fails, and a part of a run
  that takes the steps before some number

## Main statements

* `Invocation.Reports.unique` — the failures and results tell one output
* `Invocation.Clear.next`, `Invocation.Reaches.bind` — one more step, and one more part of a run
* `Invocation.reaches_result` — the run of a command takes all the steps
* `runProgram_reports` — what the program reports for any arguments that are understood

## Design decisions

**Failing is no matter of order.**  `Invocation.Fails` says of each step by itself whether it fails,
and asks of other steps only for the results that the step uses.  Several steps can fail in one run;
which of them is reported is said in `Invocation.Reports` alone.
-/

namespace CommentTemplate

/-! ## The steps of a run -/

/-- The steps of a run. -/
inductive Step where
  /-- The configuration is read. -/
  | config
  /-- The values and turns of blocks are read, if a text is to be rendered. -/
  | bindings
  /-- The template's file is read. -/
  | template
  /-- The directory of the includes is looked up. -/
  | directory
  /-- The template is compiled. -/
  | compilation
  /-- The program is rendered, if it is to be. -/
  | rendering
deriving DecidableEq

namespace Step

/-- The number of steps that are taken before a step. -/
def number : Step → Nat
  | config => 0
  | bindings => 1
  | template => 2
  | directory => 3
  | compilation => 4
  | rendering => 5

theorem number_injective : Function.Injective number := by
  intro s t h
  cases s <;> cases t <;> first | rfl | cases h

/-- The exit status of a run that fails in a step. -/
def exit : Step → Nat
  | compilation | rendering => 2
  | _ => 1

end Step

/-! ## What the steps give -/

/-- The settings with which a command compiles its template. -/
def Command.settings (config : Config) : Command → Settings
  | compile _ removals replacements _ =>
    { config := config, replacements := .insertAll .empty replacements,
      removals := .insertAll .empty removals }
  | _ => { config := config }

namespace Invocation

variable (i : Invocation) (view : FileView)

/-- The configuration of a run: the one that is given or the usual one, and stricter or traced if
there are options for that. -/
inductive Configured : Config → Prop where
  | usual (h : i.config = none) : Configured { strict := i.strict, debug := i.debug }
  | given {document : Text} {c : Config} (h : i.config = some document)
      (hparse : Config.parse document = .ok c) :
      Configured { c with strict := c.strict || i.strict, debug := c.debug || i.debug }

/-- What the compilation of the template gives under a configuration. -/
inductive Compiles (config : Config) (outcome : Except CompileError Compiled) : Prop where
  | intro {source : Text} (hconfig : i.Configured config)
      (hread : (view i.command.file).text = .ok source)
      (hcompile : (i.command.settings config).compile
        (some (.ofDirectory view (i.includeBase i.command.file))) source = outcome)

/-- A step fails with some words, those steps having succeeded whose results it uses. -/
inductive Fails : Step → Text → Prop where
  | config {document : Text} {e : Json.Error} (h : i.config = some document)
      (hparse : Config.parse document = .error e) :
      Fails .config ("Invalid config: ".toList ++ e.message)
  | bindings {file document : Text} {e : Json.Error} (h : i.command = .render file document)
      (hparse : Bindings.parse document = .error e) :
      Fails .bindings ("Invalid bindings: ".toList ++ (RenderError.invalidBindings e).message)
  | template {f : ReadFailure} (h : (view i.command.file).text = .error f) :
      Fails .template
        ("Failed to read ".toList ++ i.command.file ++ ": ".toList ++ f.message)
  | directory (h : (view (i.includeBase i.command.file)).isDir = false) :
      Fails .directory (CompileError.invalidIncludeDir (i.includeBase i.command.file)).message
  | compilation {config : Config} {e : CompileError} (h : i.Compiles view config (.error e)) :
      Fails .compilation e.message
  | rendering {file document : Text} {config : Config} {bindings : Bindings} {r : Compiled}
      {e : RenderError} (h : i.command = .render file document)
      (hparse : Bindings.parse document = .ok bindings) (hcompile : i.Compiles view config (.ok r))
      (hrender : render config.strict r.program bindings = .error e) : Fails .rendering e.message

/-- What a command prints if every step succeeds. -/
inductive Prints : Text → Prop where
  | source {file : Text} {removals : List Text} {replacements : List (Text × Text)}
      {config : Config} {r : Compiled} (h : i.command = .compile file removals replacements .text)
      (hcompile : i.Compiles view config (.ok r)) : Prints r.program.source
  | compiled {file : Text} {removals : List Text} {replacements : List (Text × Text)}
      {config : Config} {r : Compiled} (h : i.command = .compile file removals replacements .json)
      (hcompile : i.Compiles view config (.ok r)) :
      Prints (Output.json (.object
        [ ("success".toList, .bool true), ("blocks".toList, .strings r.blocks),
          ("placeholders".toList, .strings r.placeholders),
          ("program".toList, r.program.toJson) ]))
  | blocks {file : Text} {config : Config} {r : Compiled} (h : i.command = .blocks file)
      (hcompile : i.Compiles view config (.ok r)) : Prints (Output.json (.strings r.blocks))
  | text {file document : Text} {config : Config} {bindings : Bindings} {r : Compiled}
      {text : Text} (h : i.command = .render file document)
      (hparse : Bindings.parse document = .ok bindings) (hcompile : i.Compiles view config (.ok r))
      (hrender : render config.strict r.program bindings = .ok text) : Prints text

/-- None of the steps before some number fails. -/
def Clear (n : Nat) : Prop := ∀ step : Step, step.number < n → ∀ words, ¬i.Fails view step words

/-- What a run leaves: its result if every step succeeds, and otherwise the first failure. -/
inductive Reports : Output → Prop where
  | success {text : Text} (h : ∀ step words, ¬i.Fails view step words)
      (hprints : i.Prints view text) : Reports ⟨0, text⟩
  | failure {step : Step} {words : Text} (hclear : i.Clear view step.number)
      (h : i.Fails view step words) :
      Reports ⟨step.exit, Output.json
        (.object [("success".toList, .bool false), ("error".toList, .string words)])⟩

end Invocation

/-! ## There is one report -/

namespace Invocation

variable {i : Invocation} {view : FileView}

theorem Configured.unique {c d : Config} (h : i.Configured c) (h' : i.Configured d) : c = d := by
  cases h with
  | usual h =>
      cases h' with
      | usual => rfl
      | given hd => cases h.symm.trans hd
  | given h hparse =>
      cases h' with
      | usual hd => cases h.symm.trans hd
      | given hd hparse' =>
          obtain rfl := Option.some.inj (h.symm.trans hd)
          obtain rfl := Except.ok.inj (hparse.symm.trans hparse')
          rfl

theorem Compiles.unique {c d : Config} {x y : Except CompileError Compiled}
    (h : i.Compiles view c x) (h' : i.Compiles view d y) : c = d ∧ x = y := by
  obtain ⟨hconfig, hread, hcompile⟩ := h
  obtain ⟨hconfig', hread', hcompile'⟩ := h'
  obtain rfl := hconfig.unique hconfig'
  obtain rfl := Except.ok.inj (hread.symm.trans hread')
  exact ⟨rfl, hcompile.symm.trans hcompile'⟩

theorem Compiles.unique_ok {c d : Config} {r r' : Compiled} (h : i.Compiles view c (.ok r))
    (h' : i.Compiles view d (.ok r')) : c = d ∧ r = r' :=
  (h.unique h').imp_right Except.ok.inj

/-- A step fails in one way. -/
theorem Fails.unique {step : Step} {words words' : Text} (h : i.Fails view step words)
    (h' : i.Fails view step words') : words = words' := by
  cases h with
  | config h hparse =>
      cases h' with | config hd hparse' =>
      obtain rfl := Option.some.inj (h.symm.trans hd)
      obtain rfl := Except.error.inj (hparse.symm.trans hparse')
      rfl
  | bindings h hparse =>
      cases h' with | bindings hd hparse' =>
      obtain ⟨rfl, rfl⟩ := Command.render.inj (h.symm.trans hd)
      obtain rfl := Except.error.inj (hparse.symm.trans hparse')
      rfl
  | template h =>
      cases h' with | template h' =>
      obtain rfl := Except.error.inj (h.symm.trans h')
      rfl
  | directory h =>
      cases h' with | directory =>
      rfl
  | compilation h =>
      cases h' with | compilation h' =>
      obtain rfl := Except.error.inj (h.unique h').2
      rfl
  | rendering h hparse hcompile hrender =>
      cases h' with | rendering hd hparse' hcompile' hrender' =>
      obtain ⟨rfl, rfl⟩ := Command.render.inj (h.symm.trans hd)
      obtain rfl := Except.ok.inj (hparse.symm.trans hparse')
      obtain ⟨rfl, rfl⟩ := hcompile.unique_ok hcompile'
      obtain rfl := Except.error.inj (hrender.symm.trans hrender')
      rfl

/-- There is one first failure. -/
theorem Fails.unique_first {step step' : Step} {words words' : Text}
    (h : i.Fails view step words) (hclear : i.Clear view step.number)
    (hclear' : i.Clear view step'.number) (h' : i.Fails view step' words') :
    step = step' ∧ words = words' := by
  -- Neither of the steps comes before the other one.
  rcases Nat.lt_trichotomy step.number step'.number with hlt | heq | hlt
  · exact absurd h (hclear' _ hlt _)
  · obtain rfl := Step.number_injective heq
    exact ⟨rfl, h.unique h'⟩
  · exact absurd h' (hclear _ hlt _)

/-- There is one result to print. -/
theorem Prints.unique {t t' : Text} (h : i.Prints view t) (h' : i.Prints view t') : t = t' := by
  cases h with
  | source h hcompile =>
      cases h' with
      | source hd hcompile' =>
          obtain ⟨-, rfl⟩ := hcompile.unique_ok hcompile'
          rfl
      | _ hd => cases h.symm.trans hd
  | compiled h hcompile =>
      cases h' with
      | compiled hd hcompile' =>
          obtain ⟨-, rfl⟩ := hcompile.unique_ok hcompile'
          rfl
      | _ hd => cases h.symm.trans hd
  | blocks h hcompile =>
      cases h' with
      | blocks hd hcompile' =>
          obtain ⟨-, rfl⟩ := hcompile.unique_ok hcompile'
          rfl
      | _ hd => cases h.symm.trans hd
  | text h hparse hcompile hrender =>
      cases h' with
      | text hd hparse' hcompile' hrender' =>
          obtain ⟨rfl, rfl⟩ := Command.render.inj (h.symm.trans hd)
          obtain rfl := Except.ok.inj (hparse.symm.trans hparse')
          obtain ⟨rfl, rfl⟩ := hcompile.unique_ok hcompile'
          exact Except.ok.inj (hrender.symm.trans hrender')
      | _ hd => cases h.symm.trans hd

/-- There is one report. -/
theorem Reports.unique {o o' : Output} (h : i.Reports view o) (h' : i.Reports view o') :
    o = o' := by
  cases h with
  | success hall hprints =>
      cases h' with
      | success _ hprints' => rw [hprints.unique hprints']
      | failure _ h' => exact absurd h' (hall _ _)
  | failure hclear h =>
      cases h' with
      | success hall _ => exact absurd h (hall _ _)
      | failure hclear' h' =>
          obtain ⟨rfl, rfl⟩ := h.unique_first hclear hclear' h'
          rfl

/-! ## Parts of a run -/

/-- A part of a run that takes the steps before some number.  It has a value of some kind if all of
them succeed, and otherwise it ends the run with the first failure. -/
inductive Reaches (i : Invocation) (view : FileView) (n : Nat) {α : Type} (P : α → Prop) :
    Except Output α → Prop where
  | value {x : α} (hclear : i.Clear view n) (hx : P x) : Reaches i view n P (.ok x)
  | failure {step : Step} {words : Text} (hclear : i.Clear view step.number)
      (h : i.Fails view step words) : Reaches i view n P (.error (.failure step.exit words))

theorem Clear.next (step : Step) (h : i.Clear view step.number)
    (hstep : ∀ words, ¬i.Fails view step words) : i.Clear view (step.number + 1) := by
  intro s hs
  rcases Nat.lt_succ_iff_lt_or_eq.1 hs with hlt | heq
  · exact h s hlt
  · rwa [Step.number_injective heq]

/-- Parts of a run, one after the other. -/
theorem Reaches.bind {α β : Type} {m n : Nat} {P : α → Prop} {Q : β → Prop}
    {x : Except Output α} {f : α → Except Output β} (hx : i.Reaches view m P x)
    (hf : ∀ a, i.Clear view m → P a → i.Reaches view n Q (f a)) :
    i.Reaches view n Q (x >>= f) := by
  cases hx with
  | value hclear ha => exact hf _ hclear ha
  | failure hclear h => exact .failure hclear h

/-! ## The steps one by one -/

theorem reaches_configuration : i.Reaches view 1 i.Configured
    (i.configuration.mapError fun e => .failure 1 ("Invalid config: ".toList ++ e.message)) := by
  have hstart : i.Clear view Step.config.number := nofun
  cases hconfig : i.config with
  | none =>
      have h : i.configuration = .ok { strict := i.strict, debug := i.debug } := by
        simp only [configuration, hconfig]
        rfl
      rw [h]
      refine .value (.next .config hstart ?_) (.usual hconfig)
      intro words hfails
      cases hfails with | config hdocument =>
      cases hconfig.symm.trans hdocument
  | some document =>
      cases hparse : Config.parse document with
      | ok c =>
          have h : i.configuration =
              .ok { c with strict := c.strict || i.strict, debug := c.debug || i.debug } := by
            simp only [configuration, hconfig, hparse]
            rfl
          rw [h]
          refine .value (.next .config hstart ?_) (.given hconfig hparse)
          intro words hfails
          cases hfails with | config hdocument herror =>
          obtain rfl := Option.some.inj (hconfig.symm.trans hdocument)
          cases hparse.symm.trans herror
      | error e =>
          have h : i.configuration = .error e := by
            simp only [configuration, hconfig, hparse]
            rfl
          rw [h]
          exact .failure hstart (.config hconfig hparse)

theorem reaches_bindings {file document : Text} (hcommand : i.command = .render file document)
    (hclear : i.Clear view Step.bindings.number) :
    i.Reaches view 2 (fun bindings => Bindings.parse document = .ok bindings)
      ((Bindings.parse document).mapError fun e =>
        .failure 1 ("Invalid bindings: ".toList ++ (RenderError.invalidBindings e).message)) := by
  cases hparse : Bindings.parse document with
  | error e => exact .failure hclear (.bindings hcommand hparse)
  | ok bindings =>
      refine .value (.next .bindings hclear ?_) rfl
      intro words hfails
      cases hfails with | bindings hrender herror =>
      obtain ⟨-, rfl⟩ := Command.render.inj (hcommand.symm.trans hrender)
      cases hparse.symm.trans herror

theorem reaches_load (hclear : i.Clear view Step.template.number) :
    i.Reaches view 4
      (fun x => (view i.command.file).text = .ok x.1 ∧
        x.2 = .ofDirectory view (i.includeBase i.command.file))
      (i.load view i.command.file) := by
  cases hread : (view i.command.file).text with
  | error f =>
      simp only [load, hread]
      exact .failure hclear (.template hread)
  | ok source =>
      have hclear : i.Clear view Step.directory.number := by
        refine .next .template hclear fun words hfails => ?_
        cases hfails with | template herror =>
        cases hread.symm.trans herror
      cases hdir : (view (i.includeBase i.command.file)).isDir with
      | false =>
          simp only [load, hread, Loader.ofDirectory?, hdir]
          exact .failure hclear (.directory hdir)
      | true =>
          simp only [load, hread, Loader.ofDirectory?, hdir]
          refine .value (.next .directory hclear fun words hfails => ?_) ⟨rfl, rfl⟩
          cases hfails with | directory hmissing =>
          cases hdir.symm.trans hmissing

theorem reaches_compile {command : Command} (hcommand : i.command = command) {config : Config}
    (hclear : i.Clear view Step.template.number) (hconfig : i.Configured config) :
    i.Reaches view 5 (fun r => i.Compiles view config (.ok r))
      (i.compile view command.file (command.settings config)) := by
  subst hcommand
  refine (reaches_load hclear).bind ?_
  rintro ⟨source, loader⟩ hclear ⟨hread, rfl⟩
  cases hcompile : (i.command.settings config).compile
      (some (.ofDirectory view (i.includeBase i.command.file))) source with
  | error e =>
      simp only [hcompile]
      exact .failure hclear (.compilation ⟨hconfig, hread, hcompile⟩)
  | ok r =>
      simp only [hcompile]
      have h : i.Compiles view config (.ok r) := ⟨hconfig, hread, hcompile⟩
      refine .value (.next .compilation hclear fun words hfails => ?_) h
      cases hfails with | compilation herror =>
      cases (h.unique herror).2

theorem reaches_rendering {file document : Text} (hcommand : i.command = .render file document)
    {config : Config} {bindings : Bindings} (hparse : Bindings.parse document = .ok bindings)
    {r : Compiled} (hclear : i.Clear view Step.rendering.number)
    (hcompile : i.Compiles view config (.ok r)) :
    i.Reaches view 6 (i.Prints view)
      ((render config.strict r.program bindings).mapError fun e => .failure 2 e.message) := by
  cases hrender : render config.strict r.program bindings with
  | error e => exact .failure hclear (.rendering hcommand hparse hcompile hrender)
  | ok text =>
      refine .value (.next .rendering hclear fun words hfails => ?_)
        (.text hcommand hparse hcompile hrender)
      -- What fails would be another rendering of the same program.
      cases hfails with | rendering hcommand' hparse' hcompile' herror =>
      obtain ⟨-, rfl⟩ := Command.render.inj (hcommand.symm.trans hcommand')
      obtain rfl := Except.ok.inj (hparse.symm.trans hparse')
      obtain ⟨rfl, rfl⟩ := hcompile.unique_ok hcompile'
      cases hrender.symm.trans herror

/-- A command that renders nothing prints what it makes of the compilation. -/
theorem reaches_unrendered {command : Command} (hcommand : i.command = command)
    (hother : ∀ file document, command ≠ .render file document) {config : Config}
    (hclear : i.Clear view Step.bindings.number) (hconfig : i.Configured config)
    {f : Compiled → Except Output Text}
    (hprints : ∀ r, i.Compiles view config (.ok r) → ∃ text, f r = .ok text ∧ i.Prints view text) :
    i.Reaches view 6 (i.Prints view)
      (i.compile view command.file (command.settings config) >>= f) := by
  have hclear : i.Clear view Step.template.number := by
    refine .next .bindings hclear fun words hfails => ?_
    cases hfails with | bindings hrender =>
    exact hother _ _ (hcommand.symm.trans hrender)
  refine (reaches_compile hcommand hclear hconfig).bind fun r hclear hcompile => ?_
  obtain ⟨text, hf, htext⟩ := hprints r hcompile
  rw [hf]
  refine .value (.next .rendering hclear fun words hfails => ?_) htext
  cases hfails with | rendering hrender =>
  exact hother _ _ (hcommand.symm.trans hrender)

/-- **The run of a command** takes all the steps. -/
theorem reaches_result : i.Reaches view 6 (i.Prints view) (i.result view) := by
  refine reaches_configuration.bind fun config hclear hconfig => ?_
  cases hcommand : i.command with
  | compile file removals replacements format =>
      refine reaches_unrendered hcommand nofun hclear hconfig fun r hcompile => ?_
      cases format with
      | text => exact ⟨_, rfl, .source hcommand hcompile⟩
      | json => exact ⟨_, rfl, .compiled hcommand hcompile⟩
  | blocks file =>
      refine reaches_unrendered hcommand nofun hclear hconfig fun r hcompile => ?_
      exact ⟨_, rfl, .blocks hcommand hcompile⟩
  | render file document =>
      refine (reaches_bindings hcommand hclear).bind fun bindings hclear hparse => ?_
      refine (reaches_compile hcommand hclear hconfig).bind fun r hclear hcompile => ?_
      exact reaches_rendering hcommand hparse hclear hcompile

end Invocation

/-- **The program reports faithfully.**  For any arguments that are understood, and however the
files are, the exit status is 0 exactly if no step fails.  The output is then the result of the
library with the configuration of the run.  Otherwise it is the first failure, with the exit status
of its step, and nothing else. -/
theorem runProgram_reports {as : List Text} {i : Invocation}
    (hargs : Invocation.ofArguments as = .ok i) (view : FileView) :
    ((runProgram view as).exit = 0 ↔ ∀ step words, ¬i.Fails view step words) ∧
      ∀ output, runProgram view as = output ↔ i.Reports view output := by
  have hreports : i.Reports view (runProgram view as) := by
    have hreaches : i.Reaches view 6 (i.Prints view) (i.result view) := i.reaches_result
    rw [runProgram, hargs]
    dsimp only [Invocation.run]
    generalize i.result view = result at hreaches
    cases hreaches with
    | value hclear hprints =>
        exact .success (fun step => hclear step (by cases step <;> decide)) hprints
    | failure hclear h => exact .failure hclear h
  refine ⟨?_, fun output => ⟨fun h => h ▸ hreports, hreports.unique⟩⟩
  generalize runProgram view as = output at hreports
  cases hreports with
  | success hall => exact ⟨fun _ => hall, fun _ => rfl⟩
  | failure _ h =>
      refine ⟨fun hexit => ?_, fun hall => absurd h (hall _ _)⟩
      -- No step that fails ends a run with status 0.
      revert hexit
      cases h <;> nofun

/-- A page that is missing should be rendered with bindings that are broken off.  The bindings are
reported, as they are read before the page. -/
theorem runProgram_brokenBindings :
    runProgram (FileTree.empty ["home".toList]).status
        ["render".toList, "page".toList, "--bindings".toList, ['{']] =
      ⟨1, "\x7b\n  \"error\": \"Invalid bindings: Invalid bindings: ".toList ++
        "EOF while parsing an object at line 1 column 1\",\n  \"success\": false\n\x7d\n".toList⟩ := by
  let i : Invocation := ⟨false, false, none, none, .render "page".toList ['{']⟩
  have hargs : Invocation.ofArguments
      ["render".toList, "page".toList, "--bindings".toList, ['{']] = .ok i := by
    decide +kernel
  have hparse : Bindings.parse ['{'] = .error ⟨.endInObject, 1, 1⟩ := by
    rfl
  have hclear : i.Clear (FileTree.empty ["home".toList]).status Step.bindings.number := by
    intro earlier hlt words hfails
    cases hfails with
    | config hconfig => cases hconfig
    | _ => exact absurd hlt (by decide)
  rw [((runProgram_reports hargs _).2 _).2 (.failure hclear (.bindings rfl hparse))]
  decide +kernel

end CommentTemplate
