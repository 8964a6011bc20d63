import CommentTemplate.Cache.Entry
import CommentTemplate.Cache.Key
import CommentTemplate.Files.Tree
import CommentTemplate.Version

/-!
# The compile cache

Compilations are kept in a directory, one file for each key.  A stored entry is used if the
version of the engine that wrote it agrees with the running one in major and minor; there is no
other limit to its life.

## Main definitions

* `Cache.load`, `Cache.store` — one entry
* `Cache.getOrCompile` — the stored compilation of a template, or a new one that is then stored

## Design decisions

**The file tree is passed through.**  Operations that write answer the tree afterwards.  One that
fails answers the tree as it was.

**The clock is an argument.**  A new entry carries the instant that the caller gives.
-/

namespace CommentTemplate

/-- Why the cache cannot do its work. -/
inductive CacheError where
  /-- The directory of the cache is no directory. -/
  | missingDir (dir : Text)
  /-- A file of the cache cannot be read or written. -/
  | io (path cause : Text)
  /-- A file of the cache does not hold an entry. -/
  | serialization (cause : Json.Error)
  /-- The template cannot be compiled. -/
  | compile (cause : CompileError)
deriving DecidableEq, Repr

/-- The words for an error. -/
def CacheError.message : CacheError → Text
  | .missingDir dir => "Cache directory \"".toList ++ dir ++ "\" does not exist".toList
  | .io path cause => "Cache I/O error at ".toList ++ path ++ ": ".toList ++ cause
  | .serialization cause => "Serialization error: ".toList ++ cause.message
  | .compile cause => cause.message

/-- Whether an entry was stored already. -/
inductive CacheStatus where
  | hit
  | miss
deriving DecidableEq, Repr

/-- A directory of stored compilations. -/
structure Cache where
  /-- The path of the directory. -/
  dir : Text
deriving DecidableEq, Repr

/-- The version of the running engine. -/
def runningVersion : Version := ⟨1, 0, 0⟩

/-- The running version is the one that the engine writes. -/
theorem parse?_engineVersion : Version.parse? engineVersion = some runningVersion := by decide

/-- Whether an entry of some version can be used by the running engine. -/
def isCompatible (version : Text) : Bool :=
  match Version.parse? version with
  | some v => v.compatible runningVersion
  | none => false

namespace CacheEntry

/-- The entry of a fresh compilation. -/
def ofCompiled (key : Text) (now : Instant) (r : Compiled) : CacheEntry :=
  ⟨key, CommentTemplate.engineVersion, now, r.blocks, r.placeholders, r.program⟩

/-- A template compiled in a session, as an entry, and the session afterwards. -/
def compile (c : Session) (loader : Option Loader) (now : Instant) (source key : Text) :
    Session × Except CompileError CacheEntry :=
  let (c, outcome) := c.compile loader source
  (c, outcome.map fun program => ofCompiled key now ⟨program, c.blocks, c.placeholders⟩)

end CacheEntry

namespace Cache

/-- The cache in a directory, which has to be one. -/
def open? (view : FileView) (dir : Text) : Except CacheError Cache :=
  if (view dir).isDir then .ok ⟨dir⟩ else .error (.missingDir dir)

/-- The path of the file for a key. -/
def pathFor (c : Cache) (key : Text) : Text := Path.join c.dir (key ++ ".json".toList)

/-- The entry stored under a key; none if there is no file, or if the entry was written by an
incompatible engine. -/
def load (c : Cache) (view : FileView) (key : Text) : Except CacheError (Option CacheEntry) :=
  let path := c.pathFor key
  if (view path).isFile then
    match (view path).text with
    | .error failure => .error (.io path failure.message)
    | .ok content =>
      match CacheEntry.parse content with
      | .error cause => .error (.serialization cause)
      | .ok entry => .ok (if isCompatible entry.engineVersion then some entry else none)
  else .ok none

/-- The tree after an entry was stored under its key. -/
def store (c : Cache) (tree : FileTree) (entry : CacheEntry) : Except CacheError FileTree :=
  let path := c.pathFor entry.key
  match tree.write path (encodeUtf8 entry.document) with
  | .ok tree => .ok tree
  | .error failure => .error (.io path failure.message)

/-- The state that the cache works on: the files and a session. -/
structure State where
  /-- The files. -/
  tree : FileTree
  /-- The session that compiles. -/
  session : Session

/-- The compilation of a template: the stored one of its key, or a new one, which is then
stored.  The loader is given the files as they are. -/
def getOrCompile (c : Cache) (s : State) (loader : Option Loader) (now : Instant)
    (source : Text) : State × Except CacheError (CacheEntry × CacheStatus) :=
  let key := s.session.settings.keyFor source
  match c.load s.tree.status key with
  | .error e => (s, .error e)
  | .ok (some entry) => (s, .ok (entry, .hit))
  | .ok none =>
    match CacheEntry.compile s.session loader now source key with
    | (session, .error e) => ({ s with session := session }, .error (.compile e))
    | (session, .ok entry) =>
      match c.store s.tree entry with
      | .error e => ({ s with session := session }, .error e)
      | .ok tree => (⟨tree, session⟩, .ok (entry, .miss))

end Cache

end CommentTemplate
