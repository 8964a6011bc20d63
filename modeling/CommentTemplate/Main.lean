import CommentTemplate.CommandLine.Run

/-!
# The program

Reads the arguments and the files, runs the command and prints what it says.

The command itself is a function of the arguments and of a view of the files.  The view is
gathered first: the template, the directory of its includes, and then every file that an include
tag of a gathered file names, until there are no new ones.
-/

namespace CommentTemplate

/-- What a path leads to on this system.  Reading a directory fails with error 21, which some calls
report with the opposite sign; the other failure of its kind is a path through a file.  A file that
may not be read is there all the same. -/
def probe (path : Text) : IO FileStatus := do
  try
    return .file (← IO.FS.readBinFile (String.ofList path))
  catch e =>
    match e with
    | .inappropriateType _ code _ =>
      return if code = 21 ∨ 0 - code = 21 then .directory else .absent .throughFile
    | .permissionDenied .. => return .unreadable .permissionDenied
    | _ => return .absent .missing

/-- The view of the files that were looked at; all others are missing. -/
def knownView (known : List (Text × FileStatus)) : FileView := fun path =>
  (Dict.lookup path known).getD (.absent .missing)

/-- The paths that a run may look at, as far as the known files tell. -/
def wantedPaths (file base : Text) (known : List (Text × FileStatus)) : List Text :=
  let texts := known.filterMap fun k =>
    match k.2 with
    | .file bytes => some (decodeUtf8Lossy bytes)
    | _ => none
  let loader := Loader.ofDirectory (knownView known) base
  file :: base :: (texts.flatMap includedPaths).map loader.locate

/-- The known files with all those that a run may look at. -/
partial def gather (file base : Text) (known : List (Text × FileStatus)) :
    IO (List (Text × FileStatus)) := do
  let fresh := (wantedPaths file base known).filter fun p => (Dict.lookup p known).isNone
  if fresh.isEmpty then return known
  let more ← fresh.eraseDups.mapM fun p => return (p, ← probe p)
  gather file base (known ++ more)

end CommentTemplate

open CommentTemplate

/-- Runs the program; the result is its exit status. -/
def main (arguments : List String) : IO UInt32 := do
  match Invocation.ofArguments (arguments.map String.toList) with
  | .error e =>
    IO.eprintln ("error: " ++ String.ofList e.message)
    return 2
  | .ok i =>
    let file := i.command.file
    let known ← gather file (i.includeBase file) []
    let output := i.run (knownView known)
    IO.print (String.ofList output.stdout)
    return output.exit.toUInt32
