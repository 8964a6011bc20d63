import CommentTemplate.CommandLine.Arguments
import CommentTemplate.Compiler
import CommentTemplate.Files.Tree
import CommentTemplate.Program.Json
import CommentTemplate.Render

/-!
# Commands

What the program prints and the status it ends with.

* A command that succeeds prints its result and ends with status 0.
* A template that cannot be compiled or rendered ends it with status 2, and any failure before
  that with status 1.  The failure is printed as a JSON object.
* Arguments that are not understood end it with status 2, and nothing is printed.

Help is left out: arguments that ask for it are not understood here (see
`Invocation.ofArguments`), where the program would print its help and end with status 0.
-/

namespace CommentTemplate

/-- What a run of the program leaves: its exit status and what it has printed. -/
structure Output where
  /-- The exit status. -/
  exit : Nat
  /-- The text on the standard output. -/
  stdout : Text
deriving DecidableEq, Repr

namespace Output

/-- A printed JSON value: members in increasing order of name, one item on a line. -/
def json (v : Json.Value) : Text := v.canonical.pretty ++ ['\n']

/-- A failure with its words. -/
def failure (exit : Nat) (error : Text) : Output :=
  ⟨exit, json (.object [("success".toList, .bool false), ("error".toList, .string error)])⟩

end Output

/-- The configuration that the options ask for. -/
def Invocation.configuration (i : Invocation) : Except Json.Error Config := do
  let c ← match i.config with
    | some document => Config.parse document
    | none => .ok {}
  return { c with strict := c.strict || i.strict, debug := c.debug || i.debug }

/-- The directory in which a template's includes are looked up: the one given, or the one of the
template's file. -/
def Invocation.includeBase (i : Invocation) (file : Text) : Text :=
  match i.includeDir with
  | some dir => dir
  | none =>
    let parent := Path.parent file
    if parent = [] then ['.'] else parent

/-- The text of a template's file and the loader of its includes, or the failure. -/
def Invocation.load (i : Invocation) (view : FileView) (file : Text) :
    Except Output (Text × Loader) := do
  let source ← match (view file).text with
    | .ok source => .ok source
    | .error f =>
      .error (.failure 1 ("Failed to read ".toList ++ file ++ ": ".toList ++ f.message))
  let loader ← (Loader.ofDirectory? view (i.includeBase file)).mapError fun e =>
    .failure 1 e.message
  return (source, loader)

/-- A template's file compiled with some settings, or the failure. -/
def Invocation.compile (i : Invocation) (view : FileView) (file : Text) (s : Settings) :
    Except Output Compiled := do
  let (source, loader) ← i.load view file
  (s.compile (some loader) source).mapError fun e => .failure 2 e.message

/-- The result of a compilation as it is printed. -/
def Compiled.toJson (r : Compiled) : Json.Value :=
  .object
    [ ("success".toList, .bool true),
      ("blocks".toList, .strings r.blocks),
      ("placeholders".toList, .strings r.placeholders),
      ("program".toList, r.program.toJson) ]

/-- What a command prints, or the failure. -/
def Invocation.result (i : Invocation) (view : FileView) : Except Output Text := do
  let config ← i.configuration.mapError fun e =>
    .failure 1 ("Invalid config: ".toList ++ e.message)
  match i.command with
  | .compile file removals replacements format =>
    let settings :=
      (Settings.setReplacements { config := config } replacements false).setRemovals removals false
    let r ← i.compile view file settings
    match format with
    | .text => return r.program.source
    | .json => return Output.json r.toJson
  | .blocks file =>
    let r ← i.compile view file { config := config }
    return Output.json (.strings r.blocks)
  | .render file document =>
    let bindings ← (Bindings.parse document).mapError fun e =>
      .failure 1 ("Invalid bindings: ".toList ++ (RenderError.invalidBindings e).message)
    let r ← i.compile view file { config := config }
    (render config.strict r.program bindings).mapError fun e => .failure 2 e.message

/-- The run of a command. -/
def Invocation.run (i : Invocation) (view : FileView) : Output :=
  match i.result view with
  | .ok text => ⟨0, text⟩
  | .error output => output

/-- The run of the program with some arguments. -/
def runProgram (view : FileView) (as : List Text) : Output :=
  match Invocation.ofArguments as with
  | .ok i => i.run view
  | .error _ => ⟨2, []⟩

end CommentTemplate
