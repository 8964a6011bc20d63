import CommentTemplate.Files.Path
import CommentTemplate.Include
import CommentTemplate.Text.Utf8

/-!
# File trees

A file tree is the state of a file system as the program sees it: a working directory, the
directories, the contents of the files, and files that cannot be opened.

## Main definitions

* `FileStatus` — what a path leads to
* `FileTree.resolve` — the place that a path leads to
* `FileTree.status`, `FileTree.read`, `FileTree.write`, `FileTree.makeDirs`, `FileTree.delete`,
  `FileTree.names` — the operations on paths

## Design decisions

**Walking.**  A path is walked component by component from the working directory, or from the top
if it is absolute.  Every component but the last has to be an existing directory, `..` leads to
the directory above, and an empty component or a dot stays where it is but asks for a directory.
A component that is too long for a name ends the walk.

**Places.**  A place is the list of names on the way from the top, so two paths that lead to the
same file have the same place.

**Permissions.**  A file may be sealed: it is there, and nobody can read or write it.  Everything
else is open to everyone, and there is always room.  A write therefore fails only where its path
does not lead to a place for a file, or leads to a sealed one; directories that may not be written
to and full disks are left out.
-/

namespace CommentTemplate

/-- A place in a file tree: the names on the way to it from the top. -/
abbrev Place := List Text

/-- The failure to find anything. -/
def ReadFailure.missing : ReadFailure :=
  ⟨.notFound, "No such file or directory (os error 2)".toList⟩

/-- The failure to use a file as a directory. -/
def ReadFailure.throughFile : ReadFailure :=
  ⟨.notDirectory, "Not a directory (os error 20)".toList⟩

/-- The failure to use a directory as a file. -/
def ReadFailure.directory : ReadFailure := ⟨.isDirectory, "Is a directory (os error 21)".toList⟩

/-- The failure to use a name that no file can have because of its length. -/
def ReadFailure.nameTooLong : ReadFailure :=
  ⟨.invalidName, "File name too long (os error 36)".toList⟩

/-- The failure to use a path with a null character in it. -/
def ReadFailure.nullInPath : ReadFailure :=
  ⟨.invalidInput, "file name contained an unexpected NUL byte".toList⟩

/-- The failure to open a sealed file. -/
def ReadFailure.permissionDenied : ReadFailure :=
  ⟨.other, "Permission denied (os error 13)".toList⟩

/-- The failure to read bytes as a text. -/
def ReadFailure.notUtf8 : ReadFailure := ⟨.other, "stream did not contain valid UTF-8".toList⟩

/-- Contents are compared as byte arrays are. -/
instance decidableEqBytes : DecidableEq ByteArray := ByteArray.instDecidableEq

/-- What a path leads to. -/
inductive FileStatus where
  /-- Nothing, for some reason. -/
  | absent (why : ReadFailure)
  /-- A directory. -/
  | directory
  /-- A file of some bytes. -/
  | file (bytes : ByteArray)
  /-- A file that cannot be read, for some reason. -/
  | unreadable (why : ReadFailure)
deriving DecidableEq

namespace FileStatus

/-- Whether there is a directory. -/
def isDir : FileStatus → Bool
  | .directory => true
  | _ => false

/-- Whether there is a file, be it readable or not. -/
def isFile : FileStatus → Bool
  | .file _ | .unreadable _ => true
  | _ => false

end FileStatus

/-- The bytes of a file. -/
def FileStatus.bytes : FileStatus → Except ReadFailure ByteArray
  | .file bytes => .ok bytes
  | .directory => .error .directory
  | .absent why | .unreadable why => .error why

/-- The text of a file, which has to be UTF-8. -/
def FileStatus.text (s : FileStatus) : Except ReadFailure Text := do
  let bytes ← s.bytes
  match decodeUtf8 bytes with
  | some t => return t
  | none => throw .notUtf8

/-- A way to look at files: what each path leads to. -/
abbrev FileView := Text → FileStatus

/-- The path of an include without the slashes and backslashes in front of it. -/
def includePath (path : Text) : Text := path.dropWhile fun c => c = '/' || c = '\\'

/-- The loader of the files below a base directory.  Their bytes are repaired where they are not
UTF-8. -/
def Loader.ofDirectory (view : FileView) (base : Text) : Loader where
  locate path := Path.join base (includePath path)
  has path := (view (Path.join base (includePath path))).isFile
  read path := (view (Path.join base (includePath path))).bytes.map decodeUtf8Lossy

/-- The loader of the files below a base directory, which has to be one. -/
def Loader.ofDirectory? (view : FileView) (base : Text) : Except CompileError Loader :=
  if (view base).isDir then .ok (.ofDirectory view base) else .error (.invalidIncludeDir base)

/-- The directories and files of a file system, and the directory that relative paths start
from. -/
structure FileTree where
  /-- The working directory, which exists. -/
  cwd : Place
  /-- The directories, besides the working directory and those above it. -/
  dirs : List Place
  /-- The files with their contents. -/
  files : List (Place × ByteArray)
  /-- The sealed files. -/
  sealed : List Place := []
deriving DecidableEq

namespace FileTree

/-- A tree with nothing but an empty working directory. -/
def empty (cwd : Place) : FileTree := { cwd := cwd, dirs := [], files := [] }

/-- Whether there is a directory at a place. -/
def isDirAt (t : FileTree) (p : Place) : Bool := p.isPrefixOf t.cwd || t.dirs.contains p

/-- The bytes of the file at a place. -/
def fileAt (t : FileTree) (p : Place) : Option ByteArray :=
  (t.files.find? fun f => f.1 = p).map Prod.snd

/-- What there is at a place. -/
def statusAt (t : FileTree) (p : Place) : FileStatus :=
  if t.isDirAt p then .directory
  else
    match t.fileAt p with
    | some bytes => .file bytes
    | none => if t.sealed.contains p then .unreadable .permissionDenied else .absent .missing

/-- The place that one more component leads to from a directory. -/
def step (p : Place) (component : Text) : Place :=
  if component = [] ∨ component = ['.'] then p
  else if component = ['.', '.'] then p.dropLast
  else p ++ [component]

/-- The place that some components lead to, if every component on the way is a directory. -/
def walk (t : FileTree) (p : Place) : List Text → Except ReadFailure Place
  | [] => .ok p
  | c :: cs =>
    match t.statusAt p with
    | .directory => if Path.fits c then walk t (step p c) cs else .error .nameTooLong
    | .file _ | .unreadable _ => .error .throughFile
    | .absent why => .error why

/-- The place that a path starts from. -/
def origin (t : FileTree) (path : Text) : Place := if path.head? = some '/' then [] else t.cwd

/-- The place that a path leads to. -/
def resolve (t : FileTree) (path : Text) : Except ReadFailure Place :=
  if path.contains '\x00' then .error .nullInPath
  else if path = [] then .error .missing
  else if Path.maxSize ≤ Text.utf8Size path then .error .nameTooLong
  else t.walk (t.origin path) (Path.components path)

/-- What a path leads to. -/
def status (t : FileTree) : FileView := fun path =>
  match t.resolve path with
  | .ok p => t.statusAt p
  | .error why => .absent why

/-- The text of a file, which has to be UTF-8. -/
def read (t : FileTree) (path : Text) : Except ReadFailure Text := (t.status path).text

/-- The tree with a file of some bytes at a place. -/
def put (t : FileTree) (p : Place) (bytes : ByteArray) : FileTree :=
  { t with files := (p, bytes) :: t.files.filter fun f => f.1 ≠ p }

/-- The tree after a file was written.  The directory of the file has to exist, and the file, if
there is one, must not be sealed. -/
def write (t : FileTree) (path : Text) (bytes : ByteArray) : Except ReadFailure FileTree :=
  match t.resolve path with
  | .error why => .error why
  | .ok p =>
    match t.statusAt p with
    | .directory => .error .directory
    | .unreadable why => .error why
    | .absent _ | .file _ => .ok (t.put p bytes)

/-- The tree with the directories that some components lead through, from a place on. -/
def makeDirsFrom (t : FileTree) (p : Place) : List Text → FileTree
  | [] => t
  | c :: cs =>
    let q := step p c
    match t.statusAt q with
    | .directory => makeDirsFrom t q cs
    | .absent _ => makeDirsFrom { t with dirs := q :: t.dirs } q cs
    | .file _ | .unreadable _ => t

/-- The tree with a directory at a path and those above it. -/
def makeDirs (t : FileTree) (path : Text) : FileTree :=
  if path = [] then t else t.makeDirsFrom (t.origin path) (Path.components path)

/-- The tree with a file at a path and the directories above it. -/
def addFile (t : FileTree) (path : Text) (bytes : ByteArray) : FileTree :=
  let t := t.makeDirs (Path.parent path)
  match t.write path bytes with
  | .ok t => t
  | .error _ => t

/-- The tree without the file or directory at a path, and all that is in it. -/
def delete (t : FileTree) (path : Text) : FileTree :=
  match t.resolve path with
  | .ok p =>
    { t with
      dirs := t.dirs.filter fun d => !p.isPrefixOf d
      files := t.files.filter fun f => !p.isPrefixOf f.1
      sealed := t.sealed.filter fun f => !p.isPrefixOf f }
  | .error _ => t

/-- The names in a directory, in increasing order; nothing if there is no directory. -/
def names (t : FileTree) (path : Text) : List Text :=
  match t.resolve path with
  | .ok p =>
    let places := t.dirs ++ (t.files.map Prod.fst ++ t.sealed)
    let inside := places.filter fun q => q.length = p.length + 1 && p.isPrefixOf q
    if t.isDirAt p then (NameSet.ofList (inside.filterMap List.getLast?)).keys else []
  | .error _ => []

end FileTree

end CommentTemplate
