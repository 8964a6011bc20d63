import CommentTemplate.Cache
import CommentTemplate.Render

/-!
# Templates in files

A template is a file below a root directory, in which its includes are looked up too.  It is
compiled when that is first needed, through a cache if one is set, and the result is kept until
the settings change.  Values and turns of blocks are collected until it is rendered.

## Main definitions

* `Template.open?` — a template of a file
* `Template.compile`, `Template.render` — its program and its text
* `Template.modifySettings` — a change of settings, which forgets the kept result
-/

namespace CommentTemplate

/-- Why a template cannot be opened, compiled or rendered. -/
inductive TemplateError where
  /-- The file of the template is no file. -/
  | badTemplateFile (path : Text)
  /-- The directory of the cache is no directory. -/
  | badCacheDir (dir : Text)
  /-- The root directory is no directory. -/
  | badTemplateRootDir (dir : Text)
  /-- The file of the template cannot be read. -/
  | io (path cause : Text)
  | compile (cause : CompileError)
  | render (cause : RenderError)
  | cache (cause : CacheError)
deriving DecidableEq, Repr

/-- The words for an error. -/
def TemplateError.message : TemplateError → Text
  | .badTemplateFile path => "The template \"".toList ++ path ++ "\" does not exist.".toList
  | .badCacheDir dir =>
    "Attempt to set cache directory to \"".toList ++ dir ++ "\", which does not exist.".toList
  | .badTemplateRootDir dir =>
    "Attempt to set template root directory to \"".toList ++ dir ++
      "\", which does not exist.".toList
  | .io path cause => "Failed to read template ".toList ++ path ++ ": ".toList ++ cause
  | .compile cause => cause.message
  | .render cause => cause.message
  | .cache cause => cause.message

/-- A template of a file, with what was set for it so far. -/
structure Template where
  /-- The path of the file. -/
  path : Text
  /-- The directory of the includes. -/
  root : Text
  /-- The session that compiles. -/
  session : Session
  /-- The cache, if one is set. -/
  cache : Option Cache := none
  /-- The values and turns of blocks. -/
  bindings : Bindings := {}
  /-- The kept result of the last compilation. -/
  compiled : Option CacheEntry := none

namespace Template

/-- The template of a file below a root directory. -/
def open? (view : FileView) (root file : Text) (config : Config) :
    Except TemplateError Template :=
  if !(view root).isDir then .error (.badTemplateRootDir root)
  else
    let path := Path.join root file
    if !(view path).isFile then .error (.badTemplateFile path)
    else .ok { path := path, root := root, session := .start { config := config } }

/-- The template with a cache in a directory, which has to be one. -/
def withCacheDir (t : Template) (view : FileView) (dir : Text) : Except TemplateError Template :=
  match Cache.open? view dir with
  | .ok c => .ok { t with cache := some c }
  | .error _ => .error (.badCacheDir dir)

/-- The template with its settings changed, and without a kept result. -/
def modifySettings (t : Template) (f : Settings → Settings) : Template :=
  { t with session := t.session.modify f, compiled := none }

/-- The template with one more turn of a block. -/
def pushIteration (t : Template) (block : Text) (scope : Json.Scope) : Template :=
  { t with bindings := t.bindings.pushIteration block scope }

/-- The template with more values. -/
def extendValues (t : Template) (values : Json.Scope) : Template :=
  { t with bindings := t.bindings.extendValues values }

/-- The blocks of the kept result. -/
def blocks (t : Template) : List Text := (t.compiled.map CacheEntry.blocks).getD []

/-- The placeholders of the kept result. -/
def placeholders (t : Template) : List Text := (t.compiled.map CacheEntry.placeholders).getD []

/-- The state that a template works on: the files and the template. -/
structure State where
  /-- The files. -/
  tree : FileTree
  /-- The template. -/
  template : Template

/-- A new compilation of the template's file. -/
def compileFile (s : State) (now : Instant) : State × Except TemplateError CacheEntry :=
  let t := s.template
  match s.tree.read t.path with
  | .error failure => (s, .error (.io t.path failure.message))
  | .ok source =>
    let loader := some (Loader.ofDirectory s.tree.status t.root)
    match t.cache with
    | none =>
      let key := t.session.settings.keyFor source
      let (session, outcome) := CacheEntry.compile t.session loader now source key
      ({ s with template := { t with session := session } }, outcome.mapError .compile)
    | some cache =>
      let (r, outcome) := cache.getOrCompile ⟨s.tree, t.session⟩ loader now source
      (⟨r.tree, { t with session := r.session }⟩, (outcome.map Prod.fst).mapError .cache)

/-- The kept result, or a new one, which is then kept. -/
def ensureCompiled (s : State) (now : Instant) : State × Except TemplateError CacheEntry :=
  match s.template.compiled with
  | some entry => (s, .ok entry)
  | none =>
    match compileFile s now with
    | (s, .error e) => (s, .error e)
    | (s, .ok entry) =>
      ({ s with template := { s.template with compiled := some entry } }, .ok entry)

/-- The program of the template. -/
def compile (s : State) (now : Instant) : State × Except TemplateError Program :=
  let (s, outcome) := ensureCompiled s now
  (s, outcome.map CacheEntry.program)

/-- The text of the template. -/
def render (s : State) (now : Instant) : State × Except TemplateError Text :=
  match ensureCompiled s now with
  | (s, .error e) => (s, .error e)
  | (s, .ok entry) =>
    let t := s.template
    let text := CommentTemplate.render t.session.settings.config.strict entry.program t.bindings
    (s, text.mapError .render)

end Template

end CommentTemplate
