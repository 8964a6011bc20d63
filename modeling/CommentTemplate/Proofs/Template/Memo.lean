import CommentTemplate.Proofs.Template.Actions

/-!
# The kept result of a template

A template without a cache is compiled, rendered and given settings and values in any order, while
its files change.  The result that it keeps is always the one of its current settings.  It is made
of the files as they were when it was first asked for with success since the settings were opened.

## Main definitions

* `Event`, `Template.happen`, `Template.after` — what happens to a template and its files
* `Course` — the same told without a template: only what was set, and which files were there when
  a result was asked for
* `Course.kept`, `Course.needed` — what should be kept, and what the next request should give
* `Follows` — the template is as its course says

## Main statements

* `Follows.ensureCompiled` — getting the result gives what is needed, and keeps it
* `Follows.happen`, `Follows.run` — one event, and every history
* `template_after_history` — the template after any history, and the next request
-/

namespace CommentTemplate

/-! ## Histories -/

/-- What happens to a template and its files. -/
inductive Event where
  /-- The files are changed from outside. -/
  | edit (tree : FileTree)
  /-- The settings are opened, and some changes are made or none. -/
  | settings (changes : List Change)
  /-- A block gets one more turn. -/
  | turn (block : Text) (scope : Json.Scope)
  /-- More values are given. -/
  | values (values : Json.Scope)
  /-- The program is asked for. -/
  | compile (now : Instant)
  /-- The text is asked for. -/
  | render (now : Instant)

namespace Template

/-- The files and the template after an event. -/
def happen (s : State) : Event → State
  | .edit tree => { s with tree := tree }
  | .settings changes =>
    { s with template := s.template.modifySettings fun settings =>
        changes.foldl Change.apply settings }
  | .turn block scope => { s with template := s.template.pushIteration block scope }
  | .values values => { s with template := s.template.extendValues values }
  | .compile now => (compile s now).1
  | .render now => (render s now).1

/-- The files and the template after a history. -/
def after (s : State) (events : List Event) : State := events.foldl happen s

end Template

/-- The compilation of a file with nothing but some settings, as the files are. -/
def Settings.compileFile (s : Settings) (root path : Text) (tree : FileTree) :
    Except TemplateError Compiled :=
  match tree.read path with
  | .error failure => .error (.io path failure.message)
  | .ok source => (s.compile (some (.ofDirectory tree.status root)) source).mapError .compile

/-- What has happened to a template. -/
structure Course where
  /-- The directory of the includes. -/
  root : Text
  /-- The path of the file. -/
  path : Text
  /-- The files as they are now. -/
  tree : FileTree
  /-- The settings as they are now. -/
  settings : Settings
  /-- The values and turns that were given. -/
  bindings : Bindings := {}
  /-- The files at each request since the settings were last opened, in order. -/
  asked : List FileTree := []

namespace Course

/-- The program or the text is asked for. -/
def ask (c : Course) : Course := { c with asked := c.asked ++ [c.tree] }

/-- The course after one more event. -/
def next (c : Course) : Event → Course
  | .edit tree => { c with tree := tree }
  | .settings changes => { c with settings := changes.foldl Change.apply c.settings, asked := [] }
  | .turn block scope => { c with bindings := c.bindings.pushIteration block scope }
  | .values values => { c with bindings := c.bindings.extendValues values }
  | .compile _ | .render _ => c.ask

/-- The course after a history. -/
def after (c : Course) (events : List Event) : Course := events.foldl next c

/-- What should be kept: the first compilation of the files at some request that succeeds. -/
def kept (c : Course) : Option Compiled :=
  c.asked.findSome? fun tree => (c.settings.compileFile c.root c.path tree).toOption

/-- What the next request should work with: what is kept, or a compilation of the files as they are
now. -/
def needed (c : Course) : Except TemplateError Compiled :=
  match c.kept with
  | some r => .ok r
  | none => c.settings.compileFile c.root c.path c.tree

/-- After a request there is kept what was needed for it, if it could be had. -/
theorem kept_ask (c : Course) : c.ask.kept = c.needed.toOption := by
  have hask : c.ask.kept =
      c.kept.or (c.settings.compileFile c.root c.path c.tree).toOption := by
    simp only [kept, ask, List.findSome?_append, List.findSome?_singleton]
  rw [hask, needed]
  cases c.kept <;> rfl

end Course

/-! ## The template follows its course -/

/-- A template without a cache is as its course says. -/
structure Follows (c : Course) (s : Template.State) : Prop where
  root : s.template.root = c.root
  path : s.template.path = c.path
  cache : s.template.cache = none
  tree : s.tree = c.tree
  settings : s.template.session.settings = c.settings
  bindings : s.template.bindings = c.bindings
  kept : s.template.compiled.map CacheEntry.compiled = c.kept

namespace Follows

variable {c : Course} {s : Template.State}

/-- After a request it is enough to know that what is kept is what was needed. -/
theorem ask (h : Follows c s) {session : Session} {compiled : Option CacheEntry}
    (hsettings : session.settings = s.template.session.settings)
    (hcompiled : compiled.map CacheEntry.compiled = c.needed.toOption) :
    Follows c.ask
      { s with template := { s.template with session := session, compiled := compiled } } where
  root := h.root
  path := h.path
  cache := h.cache
  tree := h.tree
  settings := hsettings.trans h.settings
  bindings := h.bindings
  kept := hcompiled.trans c.kept_ask.symm

/-- A request gives what is needed and keeps it, and changes nothing else. -/
theorem ensureCompiled (h : Follows c s) (now : Instant) :
    (Template.ensureCompiled s now).2.map CacheEntry.compiled = c.needed ∧
      Follows c.ask (Template.ensureCompiled s now).1 := by
  obtain ⟨tree, t⟩ := s
  have hkept := h.kept
  cases hcompiled : t.compiled with
  | some e =>
      have hneeded : c.needed = .ok e.compiled := by
        rw [Course.needed, ← hkept, hcompiled]
        rfl
      rw [Template.ensureCompiled_of_kept hcompiled]
      refine ⟨hneeded.symm, h.ask rfl ?_⟩
      rw [hneeded, hcompiled]
      rfl
  | none =>
      have hneeded : c.needed = t.session.settings.compileFile t.root t.path tree := by
        rw [Course.needed, ← hkept, hcompiled, h.settings, h.root, h.path, ← h.tree]
        rfl
      cases hread : tree.read t.path with
      | error failure =>
          simp only [Settings.compileFile, hread] at hneeded
          rw [Template.ensureCompiled_of_error hcompiled hread]
          refine ⟨hneeded.symm, h.ask rfl ?_⟩
          rw [hneeded, hcompiled]
          rfl
      | ok source =>
          simp only [Settings.compileFile, hread] at hneeded
          rw [Template.ensureCompiled_of_uncached hcompiled h.cache hread]
          simp only [Template.loader]
          cases hr : t.session.settings.compile (some (.ofDirectory tree.status t.root)) source with
          | ok r =>
              rw [hr] at hneeded
              refine ⟨hneeded.symm, h.ask rfl ?_⟩
              rw [hneeded]
              rfl
          | error e =>
              rw [hr] at hneeded
              refine ⟨hneeded.symm, h.ask rfl ?_⟩
              rw [hneeded, hcompiled]
              rfl

/-- The program that is asked for is the one that is needed. -/
theorem compile (h : Follows c s) (now : Instant) :
    (Template.compile s now).2 = c.needed.map Compiled.program := by
  rw [← (h.ensureCompiled now).1]
  change (Template.ensureCompiled s now).2.map CacheEntry.program = _
  cases (Template.ensureCompiled s now).2 <;> rfl

/-- The text that is asked for is made of the program that is needed. -/
theorem render (h : Follows c s) (now : Instant) :
    (Template.render s now).2 = c.needed.bind (fun r =>
      (CommentTemplate.render c.settings.config.strict r.program c.bindings).mapError .render) ∧
    (Template.render s now).1 = (Template.ensureCompiled s now).1 := by
  obtain ⟨hneeded, hask⟩ := h.ensureCompiled now
  rw [Template.render, ← hneeded]
  rcases hgot : Template.ensureCompiled s now with ⟨s', e | entry⟩
  · exact ⟨rfl, rfl⟩
  · rw [hgot] at hask
    have hsettings : s'.template.session.settings = c.settings := hask.settings
    have hbindings : s'.template.bindings = c.bindings := hask.bindings
    rw [← hsettings, ← hbindings]
    exact ⟨rfl, rfl⟩

/-- **One event**: the template follows. -/
theorem happen (h : Follows c s) (event : Event) :
    Follows (c.next event) (Template.happen s event) := by
  cases event with
  | edit tree => exact { h with tree := rfl }
  | settings changes =>
      refine { h with settings := ?_, kept := rfl }
      exact congrArg (changes.foldl Change.apply) h.settings
  | turn block scope =>
      exact { h with bindings := congrArg (Bindings.pushIteration · block scope) h.bindings }
  | values values =>
      exact { h with bindings := congrArg (Bindings.extendValues · values) h.bindings }
  | compile now => exact (h.ensureCompiled now).2
  | render now =>
      rw [Template.happen, (h.render now).2]
      exact (h.ensureCompiled now).2

/-- **Every history**: the template follows. -/
theorem run (h : Follows c s) (events : List Event) :
    Follows (c.after events) (Template.after s events) := by
  induction events generalizing c s with
  | nil => exact h
  | cons event events ih => exact ih (h.happen event)

end Follows

/-- A new template is as its course begins. -/
theorem follows_open {tree : FileTree} {root file : Text} {config : Config} {t : Template}
    (h : Template.open? tree.status root file config = .ok t) :
    Follows ⟨root, Path.join root file, tree, { config := config }, {}, []⟩ ⟨tree, t⟩ := by
  rw [Template.open?_eq_ok h]
  constructor <;> rfl

/-- **The kept result is never stale.**  After any history of a template without a cache, it keeps
the first compilation with its current settings that succeeded for a request since they were last
opened, or nothing; its blocks and placeholders are the ones of that result.  The next request gives
the program of that result, or renders it as strictly as the settings are now, or else works with a
new compilation.  If that fails then nothing is kept; otherwise the result is kept, also if
rendering it fails.  Neither a request nor opening the settings changes the values and turns. -/
theorem template_after_history {tree : FileTree} {root file : Text} {config : Config}
    {t : Template} (hopen : Template.open? tree.status root file config = .ok t)
    (events : List Event) :
    let s := Template.after ⟨tree, t⟩ events
    let c := Course.after ⟨root, Path.join root file, tree, { config := config }, {}, []⟩ events
    s.template.compiled.map CacheEntry.compiled = c.kept ∧
    s.template.blocks = (c.kept.map Compiled.blocks).getD [] ∧
    s.template.placeholders = (c.kept.map Compiled.placeholders).getD [] ∧
    s.template.bindings = c.bindings ∧
    (∀ changes, let s' := Template.happen s (.settings changes)
      s'.template.compiled = none ∧ s'.template.bindings = c.bindings) ∧
    ∀ now,
      (Template.compile s now).2 = c.needed.map Compiled.program ∧
      (Template.render s now).2 = c.needed.bind (fun r =>
        (CommentTemplate.render c.settings.config.strict r.program c.bindings).mapError .render) ∧
      ∀ s', s' = (Template.compile s now).1 ∨ s' = (Template.render s now).1 →
        s'.template.compiled.map CacheEntry.compiled = c.needed.toOption ∧
        s'.template.bindings = c.bindings ∧ s'.tree = s.tree := by
  intro s c
  have h : Follows c s := (follows_open hopen).run events
  refine ⟨h.kept, ?_, ?_, h.bindings, fun _ => ⟨rfl, h.bindings⟩, fun now => ?_⟩
  · rw [← h.kept, Template.blocks, Option.map_map]
    rfl
  · rw [← h.kept, Template.placeholders, Option.map_map]
    rfl
  · obtain ⟨hneeded, hask⟩ := h.ensureCompiled now
    refine ⟨h.compile now, (h.render now).1, ?_⟩
    intro s' hs'
    obtain rfl : s' = (Template.ensureCompiled s now).1 := by
      rcases hs' with rfl | rfl
      · rfl
      · exact (h.render now).2
    exact ⟨hask.kept.trans c.kept_ask, hask.bindings, hask.tree.trans h.tree.symm⟩

/-- A page is missing at first, then it is read, and then written anew.  What was read is rendered
once its name is known.  The new page is rendered when the settings have been opened. -/
theorem render_editedPage :
    let files (page : Text) : FileTree :=
      ⟨["home".toList], [], [(["home".toList, "page".toList], encodeUtf8 page)], []⟩
    let now := Moment.noon.instant
    let session := Session.start { config := .strictDefault }
    let t : Template := { path := "./page".toList, root := ['.'], session := session }
    let s := Template.after ⟨files [], t⟩ [.edit (.empty ["home".toList]), .compile now,
      .edit (files "Dear {NAME}".toList), .render now, .edit (files "Bye".toList),
      .values (.ofList [("NAME".toList, .string "Ann".toList)])]
    (Template.render s now).2 = .ok "Dear Ann".toList ∧
      (Template.render (Template.happen s (.settings [])) now).2 = .ok "Bye".toList := by
  intro files now session t s
  let events : List Event := [.edit (.empty ["home".toList]), .compile now,
    .edit (files "Dear {NAME}".toList), .render now, .edit (files "Bye".toList),
    .values (.ofList [("NAME".toList, .string "Ann".toList)])]
  have hopen : Template.open? (files []).status ['.'] "page".toList .strictDefault = .ok t := by
    rfl
  have hopened : Template.happen s (.settings []) =
      Template.after ⟨files [], t⟩ (events ++ [.settings []]) := by
    rw [Template.after, List.foldl_append]
    rfl
  obtain ⟨-, -, -, -, -, hread⟩ := template_after_history hopen events
  obtain ⟨-, -, -, -, -, hnew⟩ := template_after_history hopen (events ++ [.settings []])
  constructor
  · rw [(hread now).2.1]
    decide +kernel
  · rw [hopened, (hnew now).2.1]
    decide +kernel

end CommentTemplate
