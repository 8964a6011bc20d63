import CommentTemplate.Proofs.Compile.Stages

/-!
# Sessions without a memory

A session is used for changes of the settings and for compilations, in any order.  Its settings
are made by the changes alone, a compilation gives what it would give in a new session, and one
that fails leaves no trace.

## Main definitions

* `Change`, `Operation`, `Session.run` — what is done with a session, in order
* `lastCompiled` — the last success of a history, found without a session
* `Session.after` — the session after a success
* `Settings.Fails` — the stage that a failing compilation fails in, with its error

## Main statements

* `compile_eq_error_iff` — a compilation fails as one of its stages does
* `settings_run`, `names_run` — the state of a session after any history
* `compile_after_history` — a compilation after any history is one in a new session
-/

namespace CommentTemplate

/-! ## Histories -/

/-- A change of the settings. -/
inductive Change where
  /-- More replacements, or other ones. -/
  | replacements (pairs : List (Text × Text)) (merge : Bool)
  /-- More removals, or other ones. -/
  | removals (names : List Text) (merge : Bool)
  /-- Another configuration. -/
  | config (new : Config)
deriving DecidableEq, Repr

/-- The settings after a change. -/
def Change.apply (s : Settings) : Change → Settings
  | replacements pairs merge => s.setReplacements pairs merge
  | removals names merge => s.setRemovals names merge
  | config new => s.setConfig new

/-- What is done with a session. -/
inductive Operation where
  /-- The settings are changed. -/
  | change (change : Change)
  /-- A template is compiled. -/
  | compile (template : Text)
deriving DecidableEq, Repr

/-- The changes of a history, in order. -/
def changesOf (history : List Operation) : List Change :=
  history.filterMap fun
    | .change change => some change
    | .compile _ => none

/-- The session after one operation. -/
def Session.perform (loader : Option Loader) (c : Session) : Operation → Session
  | .change change => c.modify change.apply
  | .compile template => (c.compile loader template).1

/-- The session after a history. -/
def Session.run (loader : Option Loader) (c : Session) (history : List Operation) : Session :=
  history.foldl (perform loader) c

/-- The last success of a history that begins with some settings. -/
def lastCompiled (loader : Option Loader) : Settings → List Operation → Option Compiled
  | _, [] => none
  | s, .change change :: history => lastCompiled loader (change.apply s) history
  | s, .compile template :: history =>
    (lastCompiled loader s history).or (s.compile loader template).toOption

/-! ## Failing stages -/

/-- A compilation fails in one of its stages, those before it having succeeded. -/
inductive Settings.Fails (s : Settings) (loader : Option Loader) (t : Text) (e : CompileError) :
    Prop where
  | includes (h : resolveIncludes loader s.config.policy t = .error e)
  | replacements {resolved : Text} (hres : resolveIncludes loader s.config.policy t = .ok resolved)
    (h : extractReplacements s.config.policy resolved = .error e)
  | blocks {resolved stripped : Text} {given : Replacements}
    (hres : resolveIncludes loader s.config.policy t = .ok resolved)
    (hext : extractReplacements s.config.policy resolved = .ok (stripped, given))
    (h : (expandBlocks (s.blockRules given) stripped).outcome = .error e)

/-- A compilation fails exactly as one of its stages does. -/
theorem compile_eq_error_iff {s : Settings} {loader : Option Loader} {t : Text}
    {e : CompileError} : s.compile loader t = .error e ↔ s.Fails loader t e := by
  simp only [Settings.compile, bind_eq_error_iff, Prod.exists]
  constructor
  · rintro (h | ⟨resolved, hres, h | ⟨stripped, given, hext, h | ⟨nodes, -, h⟩⟩⟩)
    · exact .includes h
    · exact .replacements hres h
    · exact .blocks hres hext h
    · cases h
  · intro h
    cases h with
    | includes h => exact .inl h
    | replacements hres h => exact .inr ⟨_, hres, .inl h⟩
    | blocks hres hext h => exact .inr ⟨_, hres, .inr ⟨_, _, hext, .inl h⟩⟩

/-! ## One operation -/

/-- The session after a compilation that succeeded. -/
def Session.after (c : Session) (r : Compiled) : Session :=
  { c with blocks := r.blocks, placeholders := r.placeholders }

section Session

variable {loader : Option Loader} {c : Session} {t : Text}

theorem Session.compile_of_ok {r : Compiled} (h : c.settings.compile loader t = .ok r) :
    c.compile loader t = (c.after r, .ok r.program) := by
  rw [compile, h]
  rfl

theorem Session.compile_of_error {e : CompileError} (h : c.settings.compile loader t = .error e) :
    c.compile loader t = (c, .error e) := by
  rw [compile, h]

/-- A compilation does not touch the settings. -/
theorem Session.settings_compile : (c.compile loader t).1.settings = c.settings := by
  cases h : c.settings.compile loader t with
  | ok r => rw [compile_of_ok h, after]
  | error e => rw [compile_of_error h]

/-! ## Any history -/

/-- The settings after a history are made by its changes alone. -/
theorem settings_run (history : List Operation) :
    (c.run loader history).settings = (changesOf history).foldl Change.apply c.settings := by
  induction history generalizing c with
  | nil => rfl
  | cons operation history ih =>
      rw [Session.run, List.foldl_cons, ← Session.run, ih]
      cases operation with
      | change change => rfl
      | compile template => rw [Session.perform, Session.settings_compile]; rfl

/-- The names after a history are those of its last success; without one they are as before. -/
theorem names_run (history : List Operation) :
    ((c.run loader history).blocks, (c.run loader history).placeholders) =
      ((lastCompiled loader c.settings history).map fun r => (r.blocks, r.placeholders)).getD
        (c.blocks, c.placeholders) := by
  induction history generalizing c with
  | nil => rfl
  | cons operation history ih =>
      rw [Session.run, List.foldl_cons, ← Session.run, ih]
      cases operation with
      | change change => rfl
      | compile template =>
          rw [Session.perform, Session.settings_compile, lastCompiled]
          -- A later success hides the outcome of this compilation, whatever it was.
          cases hlast : lastCompiled loader c.settings history with
          | some r => rfl
          | none =>
              rw [Option.none_or]
              cases h : c.settings.compile loader template with
              | ok r => rw [Session.compile_of_ok h]; rfl
              | error e => rw [Session.compile_of_error h]; rfl

end Session

/-- **A session has no memory but its settings.**  After any history the settings are those that
its changes make.  A compilation then gives what it gives in a new session with these settings,
and leaves them alone.  If it succeeds, the session is as that new session is afterwards; if some
stage fails, the session is as it was, and its names are still those of the last success. -/
theorem compile_after_history (s : Settings) (loader : Option Loader) (history : List Operation)
    (t : Text) :
    let c := (Session.start s).run loader history
    let fresh := (Session.start c.settings).compile loader t
    c.settings = (changesOf history).foldl Change.apply s ∧
    (c.blocks, c.placeholders) =
      ((lastCompiled loader s history).map fun r => (r.blocks, r.placeholders)).getD ([], []) ∧
    (c.compile loader t).2 = fresh.2 ∧
    (c.compile loader t).1.settings = c.settings ∧
    (∀ p, fresh.2 = .ok p → (c.compile loader t).1 = fresh.1) ∧
    (∀ e, fresh.2 = .error e ↔ c.settings.Fails loader t e) ∧
    ∀ e, c.settings.Fails loader t e → (c.compile loader t).1 = c := by
  intro c fresh
  refine ⟨settings_run history, names_run history, ?_⟩
  cases h : c.settings.compile loader t with
  | ok r =>
      have hfresh : fresh = _ := Session.compile_of_ok (c := Session.start c.settings) h
      have hfails (e : CompileError) : ¬c.settings.Fails loader t e := fun he => by
        rw [compile_eq_error_iff.2 he] at h
        cases h
      rw [hfresh, Session.compile_of_ok h]
      exact ⟨rfl, rfl, fun p _ => rfl, fun e => ⟨nofun, fun he => absurd he (hfails e)⟩,
        fun e he => absurd he (hfails e)⟩
  | error e =>
      have hfresh : fresh = _ := Session.compile_of_error (c := Session.start c.settings) h
      rw [hfresh, Session.compile_of_error h]
      refine ⟨rfl, rfl, nofun, fun e' => ?_, fun _ _ => rfl⟩
      rw [← compile_eq_error_iff, h, Except.error.injEq, Except.error.injEq]

end CommentTemplate
