import CommentTemplate.Include
import CommentTemplate.Block
import CommentTemplate.Placeholder

/-!
# Compilation

A template is compiled in four stages, always in this order: includes, replacement tags, blocks,
placeholders.  A failure in any stage is the failure of the whole, and there is no partial result.

## Main definitions

* `Settings` — configuration, replacements and removals
* `Settings.compile` — the compilation of one template
* `Session` — settings that change between compilations, with the lists of the last success

## Design decisions

**Replacements from the template win** over those of the settings, and hold for that compilation
only: `Settings.compile` answers no settings.

**A session is a value.**  Its operations answer the session afterwards.  A compilation changes
only the two lists, and only when it succeeds.
-/

namespace CommentTemplate

/-- What a compilation depends on besides the template and its includes. -/
structure Settings where
  /-- Strictness and limit. -/
  config : Config := {}
  /-- Contents for blocks. -/
  replacements : Replacements := Dict.empty
  /-- Blocks to leave out. -/
  removals : NameSet := Dict.empty
deriving DecidableEq, Repr

/-- A compiled template with the names met in it. -/
structure Compiled where
  /-- The program. -/
  program : Program
  /-- The names of the blocks, inner ones first. -/
  blocks : List Text
  /-- The names of the placeholders, in order of occurrence. -/
  placeholders : List Text
deriving DecidableEq, Repr

namespace Settings

/-- The rules for blocks where a template has given replacements. -/
def blockRules (s : Settings) (given : Replacements) : BlockRules :=
  ⟨s.config.policy, s.replacements.overriddenBy given, s.removals⟩

/-- The template compiled, its includes looked up by a loader. -/
def compile (s : Settings) (loader : Option Loader) (template : Text) :
    Except CompileError Compiled := do
  let resolved ← resolveIncludes loader s.config.policy template
  let (stripped, given) ← extractReplacements s.config.policy resolved
  let expansion := expandBlocks (s.blockRules given) stripped
  let nodes ← expansion.outcome
  return ⟨⟨expandPlaceholders nodes⟩, expansion.blocks, placeholdersOf nodes⟩

/-- More replacements, or other ones if they are not to be merged with those there are. -/
def setReplacements (s : Settings) (pairs : List (Text × Text)) (merge : Bool) : Settings :=
  { s with replacements := (if merge then s.replacements else Dict.empty).insertAll pairs }

/-- More removals, or other ones if they are not to be merged with those there are. -/
def setRemovals (s : Settings) (names : List Text) (merge : Bool) : Settings :=
  { s with removals := NameSet.insertAll (if merge then s.removals else Dict.empty) names }

/-- Another configuration. -/
def setConfig (s : Settings) (config : Config) : Settings := { s with config := config }

end Settings

/-- Settings in use, with the names met by the last successful compilation. -/
structure Session where
  /-- The current settings. -/
  settings : Settings
  /-- The blocks of the last successful compilation. -/
  blocks : List Text := []
  /-- The placeholders of the last successful compilation. -/
  placeholders : List Text := []
deriving DecidableEq, Repr

namespace Session

/-- A session that has compiled nothing. -/
def start (settings : Settings) : Session := { settings := settings }

/-- The session with settings changed. -/
def modify (c : Session) (f : Settings → Settings) : Session :=
  { c with settings := f c.settings }

/-- The session after a compilation of a template, and the outcome. -/
def compile (c : Session) (loader : Option Loader) (template : Text) :
    Session × Except CompileError Program :=
  match c.settings.compile loader template with
  | .ok r => ({ c with blocks := r.blocks, placeholders := r.placeholders }, .ok r.program)
  | .error e => (c, .error e)

end Session

end CommentTemplate
