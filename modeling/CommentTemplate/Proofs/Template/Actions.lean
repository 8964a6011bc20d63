import CommentTemplate.Proofs.Cache.Directory
import CommentTemplate.Template

/-!
# What is done with a template

A template is changed, compiled and rendered in any order.  Each action answers something and
leaves the files and the template for the next one.

## Main definitions

* `Template.Action`, `Template.Answer` — what is done with a template, and what it answers
* `Template.act`, `Template.answers` — one action, and the answers to some actions in order
* `TemplateError.bare`, `Template.Answer.bare` — without the wrapping of the cache around errors

## Main statements

* `Template.compileFile_of_error`, `Template.compileFile_of_none`, `Template.compileFile_of_some`
  — the compilation of a template's file, without and with a cache
-/

namespace CommentTemplate

/-- What an entry keeps of the compilation. -/
def CacheEntry.compiled (e : CacheEntry) : Compiled := ⟨e.program, e.blocks, e.placeholders⟩

@[simp] theorem CacheEntry.compiled_ofCompiled (key : Text) (now : Instant) (r : Compiled) :
    (CacheEntry.ofCompiled key now r).compiled = r := rfl

@[simp] theorem Filing.compiled_entry (f : Filing) : f.entry.compiled = f.compiled := rfl

/-- An error without the wrapping of the cache. -/
def TemplateError.bare : TemplateError → TemplateError
  | .cache (.compile cause) => .compile cause
  | e => e

namespace Template

/-- What is done with a template. -/
inductive Action where
  /-- The settings are changed. -/
  | change (change : Change)
  /-- A block gets one more turn. -/
  | turn (block : Text) (scope : Json.Scope)
  /-- More values are given. -/
  | values (values : Json.Scope)
  /-- The program is asked for. -/
  | compile (now : Moment)
  /-- The text is asked for. -/
  | render (now : Moment)

/-- The time of an action that needs the compilation. -/
def Action.moment? : Action → Option Moment
  | .compile now | .render now => some now
  | _ => none

/-- What a template answers. -/
inductive Answer where
  | done
  | program (r : Except TemplateError Program)
  | text (r : Except TemplateError Text)
deriving DecidableEq

/-- An answer without the wrapping of the cache. -/
def Answer.bare : Answer → Answer
  | .done => .done
  | .program r => .program (r.mapError TemplateError.bare)
  | .text r => .text (r.mapError TemplateError.bare)

/-- The files and the template after an action, and the answer. -/
def act (s : State) : Action → State × Answer
  | .change change => ({ s with template := s.template.modifySettings change.apply }, .done)
  | .turn block scope => ({ s with template := s.template.pushIteration block scope }, .done)
  | .values values => ({ s with template := s.template.extendValues values }, .done)
  | .compile now => ((compile s now.instant).1, .program (compile s now.instant).2)
  | .render now => ((render s now.instant).1, .text (render s now.instant).2)

/-- The answers to some actions, one after the other. -/
def answers : State → List Action → List Answer
  | _, [] => []
  | s, action :: actions => (act s action).2 :: answers (act s action).1 actions

section Act

variable {s : State} {action : Action}

theorem act_compile (s : State) (now : Moment) : (act s (.compile now)).2 =
    .program ((ensureCompiled s now.instant).2.map CacheEntry.program) := rfl

/-- An action that needs the compilation leaves what getting it leaves. -/
theorem act_of_moment {now : Moment} (h : action.moment? = some now) :
    (act s action).1 = (ensureCompiled s now.instant).1 := by
  cases action with
  | compile now' =>
      obtain rfl : now' = now := Option.some.inj h
      rfl
  | render now' =>
      obtain rfl : now' = now := Option.some.inj h
      simp only [act, render]
      rcases ensureCompiled s now'.instant with ⟨s', e | entry⟩ <;> rfl
  | _ => cases h

/-- Any other action leaves the files and the cache as they are. -/
theorem act_of_no_moment (h : action.moment? = none) :
    (act s action).1.tree = s.tree ∧ (act s action).1.template.cache = s.template.cache := by
  cases action with
  | compile | render => cases h
  | _ => exact ⟨rfl, rfl⟩

end Act

/-! ## A template that was opened -/

theorem open?_eq_ok {view : FileView} {root file : Text} {config : Config} {t : Template}
    (h : open? view root file config = .ok t) :
    t = { path := Path.join root file, root := root, session := .start { config := config } } := by
  simp only [open?] at h
  split at h
  · cases h
  · split at h
    · cases h
    · exact (Except.ok.inj h).symm

/-! ## The compilation of a file -/

/-- The sources that a template includes, as the files are. -/
def loader (t : Template) (tree : FileTree) : Loader := .ofDirectory tree.status t.root

section CompileFile

variable {tree : FileTree} {t : Template} {source : Text}

/-- A file that cannot be read is no concern of the compiler or the cache. -/
theorem compileFile_of_error {failure : ReadFailure} (h : tree.read t.path = .error failure)
    (now : Instant) :
    compileFile ⟨tree, t⟩ now = (⟨tree, t⟩, .error (.io t.path failure.message)) := by
  simp only [compileFile, h]

/-- Without a cache the file is compiled in the template's session. -/
theorem compileFile_of_none (h : tree.read t.path = .ok source) (hcache : t.cache = none)
    (now : Instant) :
    compileFile ⟨tree, t⟩ now =
      match t.session.settings.compile (some (t.loader tree)) source with
      | .ok r => (⟨tree, { t with session := t.session.after r }⟩,
        .ok (.ofCompiled (t.session.settings.keyFor source) now r))
      | .error e => (⟨tree, t⟩, .error (.compile e)) := by
  obtain ⟨path, root, session, cache, bindings, compiled⟩ := t
  obtain rfl : cache = none := hcache
  simp only [compileFile, h, loader]
  cases hr : session.settings.compile (some (.ofDirectory tree.status root)) source with
  | ok r => simp only [CacheEntry.compile_of_ok hr, Except.mapError]
  | error e => simp only [CacheEntry.compile_of_error hr, Except.mapError]

/-- With a cache the file is compiled through it. -/
theorem compileFile_of_some (h : tree.read t.path = .ok source) {c : Cache}
    (hcache : t.cache = some c) (now : Instant) :
    let r := c.getOrCompile ⟨tree, t.session⟩ (some (t.loader tree)) now source
    compileFile ⟨tree, t⟩ now =
      (⟨r.1.tree, { t with session := r.1.session }⟩, (r.2.map Prod.fst).mapError .cache) := by
  simp only [compileFile, h, hcache]
  rfl

theorem ensureCompiled_of_kept {e : CacheEntry} (h : t.compiled = some e) (now : Instant) :
    ensureCompiled ⟨tree, t⟩ now = (⟨tree, t⟩, .ok e) := by
  simp only [ensureCompiled, h]

theorem ensureCompiled_of_error (hnone : t.compiled = none) {failure : ReadFailure}
    (h : tree.read t.path = .error failure) (now : Instant) :
    ensureCompiled ⟨tree, t⟩ now = (⟨tree, t⟩, .error (.io t.path failure.message)) := by
  simp only [ensureCompiled, hnone, compileFile_of_error h]

theorem ensureCompiled_of_uncached (hnone : t.compiled = none) (hcache : t.cache = none)
    (h : tree.read t.path = .ok source) (now : Instant) :
    ensureCompiled ⟨tree, t⟩ now =
      match t.session.settings.compile (some (t.loader tree)) source with
      | .ok r =>
        let entry := .ofCompiled (t.session.settings.keyFor source) now r
        (⟨tree, { t with session := t.session.after r, compiled := some entry }⟩, .ok entry)
      | .error e => (⟨tree, t⟩, .error (.compile e)) := by
  simp only [ensureCompiled, hnone]
  rw [compileFile_of_none h hcache]
  cases t.session.settings.compile (some (t.loader tree)) source <;> rfl

end CompileFile

end Template

end CommentTemplate
