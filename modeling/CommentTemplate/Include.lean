import CommentTemplate.Policy

/-!
# Includes

An include tag is replaced by the text of the source that it names, in which include tags are
replaced in turn.  This happens before every other stage, so the tags of an included text work as
if they stood in the template.

## Main definitions

* `Loader` — where the sources are looked up
* `spliceIncludes` — a text with every include tag replaced by what a function gives for its path
* `resolveIncludes` — a text with all includes replaced, to any depth

## Design decisions

**One recursion.**  `includeText` answers the text for one path at one depth.  It calls itself
through `spliceIncludes` at the next depth, and it asks the policy first, so the distance to the
limit bounds the recursion even where sources include each other in a circle.
-/

namespace CommentTemplate

/-- The kinds of failure of a read. -/
inductive ReadFailure.Kind where
  | notFound
  | isDirectory
  | notDirectory
  | invalidName
  | invalidInput
  | other
deriving DecidableEq, Repr

/-- Why a source cannot be read. -/
structure ReadFailure where
  /-- The kind of failure. -/
  kind : ReadFailure.Kind
  /-- The words for it. -/
  message : Text
deriving DecidableEq, Repr

/-- A place in which included sources are looked up by path. -/
structure Loader where
  /-- The path as errors report it. -/
  locate : Text → Text
  /-- Whether there is a source of that path. -/
  has : Text → Bool
  /-- The text of the source. -/
  read : Text → Except ReadFailure Text

/-- Sources kept in memory: the text of each path, or the message with which reading it fails. -/
abbrev Sources := Dict (Except Text Text)

/-- The loader of sources kept in memory. -/
def Loader.ofSources (sources : Sources) : Loader where
  locate path := path
  has path := sources.contains path
  read path :=
    match sources.find? path with
    | some (.ok text) => .ok text
    | some (.error message) => .error ⟨.other, message⟩
    | none => .error ⟨.notFound, path⟩

/-- The text of found tags with each tag replaced by what `f` gives for it. -/
def spliceFound {α : Type} (f : α → Except CompileError Text) :
    List (Found α) → Except CompileError Text
  | [] => .ok []
  | t :: ts => do
    let content ← f t.tag
    let rest ← spliceFound f ts
    return t.before ++ (content ++ rest)

/-- A text with each include tag replaced by what `f` gives for its path. -/
def spliceIncludes (f : Text → Except CompileError Text) (s : Text) :
    Except CompileError Text := do
  let scan := includeTag.scan s
  let front ← spliceFound f scan.found
  return front ++ scan.tail

/-- The paths of the include tags of a text, left to right. -/
def includedPaths (s : Text) : List Text := (includeTag.scan s).found.map Found.tag

/-- The text of the source that a tag names; none where it is missing or unreadable and that is
no error. -/
def fetch (loader : Option Loader) (strict : Bool) (path : Text) :
    Except CompileError (Option Text) :=
  match loader with
  | none => if strict then .error (.includeNotFound path) else .ok none
  | some loader =>
    if loader.has path then
      match loader.read path with
      | .ok text => .ok (some text)
      | .error failure =>
        if strict then .error (.unreadable (loader.locate path) failure.message) else .ok none
    else if strict then .error (.includeNotFound (loader.locate path))
    else .ok none

/-- What an include tag at some depth is replaced by. -/
def includeText (loader : Option Loader) (policy : Policy) (depth : Nat) (path : Text) :
    Except CompileError Text :=
  match h : policy.descend .includes depth with
  | .error e => .error e
  | .ok .truncate => .ok []
  | .ok .enter =>
    have : depth < policy.limit := Policy.descend_eq_enter_iff.1 h
    match fetch loader policy.strict path with
    | .error e => .error e
    | .ok none => .ok []
    | .ok (some text) => spliceIncludes (includeText loader policy (depth + 1)) text
termination_by policy.limit - depth

/-- A text with every include tag replaced, and those of the included texts, to any depth. -/
def resolveIncludes (loader : Option Loader) (policy : Policy) (s : Text) :
    Except CompileError Text :=
  spliceIncludes (includeText loader policy 0) s

end CommentTemplate
