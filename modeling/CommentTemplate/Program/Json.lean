import CommentTemplate.Program.Basic

/-!
# Programs as JSON

A program is an object with the field `nodes`.  A node is an object whose field `op` says what
kind of step it is; the other fields depend on that.  The field `op` may stand anywhere in the
object, so a node is first read as a list of members and then understood.  A node may also be an
array that starts with the kind of step.

## Design decisions

**The first error counts.**  Members and items are understood in the order in which they stand, so
the first one that is not what its field asks for is the error, and then a field that is missing or
an item too many.
-/

namespace CommentTemplate

/-- The kinds of step, by the names that the field `op` has for them. -/
inductive NodeKind where
  | literal
  | loopOpen
  | loopClose
  | varRef
deriving DecidableEq, Repr

namespace NodeKind

/-- The name of a kind of step. -/
def label : NodeKind → Text
  | .literal => "literal".toList
  | .loopOpen => "loop_open".toList
  | .loopClose => "loop_close".toList
  | .varRef => "var_ref".toList

/-- All kinds of step. -/
def all : List NodeKind := [.literal, .loopOpen, .loopClose, .varRef]

/-- The kind of step of a given name. -/
def reader : Json.Reader NodeKind := fun s => do
  let (name, s) ← Json.expecting "variant identifier".toList (fun
    | .string s => some s
    | _ => none) s
  match all.find? (·.label = name) with
  | some kind => return (kind, s)
  | none => throw (.before (.unknownVariant name (all.map label)) s)

/-- The field that every step of a kind has. -/
def field : NodeKind → Text
  | .literal => "text".toList
  | .loopOpen | .loopClose => "block".toList
  | .varRef => "name".toList

/-- How errors describe the fields of a kind of step. -/
def description : NodeKind → Text
  | .literal => "struct variant Node::Literal with 1 element".toList
  | .loopOpen => "struct variant Node::LoopOpen with 1 element".toList
  | .loopClose => "struct variant Node::LoopClose with 1 element".toList
  | .varRef => "struct variant Node::VarRef with 2 elements".toList

/-- The step of a kind with a given main field. -/
def node (kind : NodeKind) (main : Text) (function : Option Text) : Node :=
  match kind with
  | .literal => .literal main
  | .loopOpen => .loopOpen main
  | .loopClose => .loopClose main
  | .varRef => .varRef main function

end NodeKind

namespace Node

/-- How errors describe a value that was read before. -/
def seen : Json.Value → Json.Seen
  | .null => .null
  | .bool b => .bool b
  | .number n => .number n
  | .string s => .string s
  | .array _ => .array
  | .object _ => .object

/-- A value as a string. -/
def stringOf : Json.Value → Except Json.Cause Text
  | .string s => .ok s
  | v => .error (.wrongType (seen v) "a string".toList)

/-- A value as a string that may be missing. -/
def optionOf : Json.Value → Except Json.Cause (Option Text)
  | .null => .ok none
  | v => (stringOf v).map some

/-- The fields of a node that were given so far. -/
structure Fields where
  /-- The field that every step of the kind has. -/
  main : Option Text := none
  /-- The function of a variable, which may be given as none. -/
  function : Option (Option Text) := none
deriving DecidableEq, Repr

/-- The fields with those of one more member.  A field is understood when it is met, and may be
given once; unknown members do not count. -/
def Fields.add (kind : NodeKind) (f : Fields) (m : Text × Json.Value) :
    Except Json.Cause Fields := do
  if m.1 = kind.field then
    if f.main.isSome then throw (.duplicateField m.1)
    else return { f with main := some (← stringOf m.2) }
  else if kind = .varRef ∧ m.1 = "function".toList then
    if f.function.isSome then throw (.duplicateField m.1)
    else return { f with function := some (← optionOf m.2) }
  else return f

/-- The step of a kind with given members. -/
def ofMembers (kind : NodeKind) (members : List (Text × Json.Value)) :
    Except Json.Cause Node := do
  let f ← members.foldlM (Fields.add kind) {}
  let main ← Json.require kind.field f.main
  return kind.node main (f.function.getD none)

/-- The step of a kind with given items in the order of its fields, and nothing after them. -/
def ofItems (kind : NodeKind) (items : List Json.Value) : Except Json.Cause Node := do
  match items with
  | [] => throw (.wrongLength 0 kind.description)
  | main :: rest =>
    let main ← stringOf main
    let (function, rest) ← match kind, rest with
      | .varRef, function :: rest => (optionOf function).map fun function => (function, rest)
      | _, rest => .ok (none, rest)
    if rest.isEmpty then return kind.node main function
    else
      let taken := items.length - rest.length
      throw (.wrongLength items.length (Json.elementCount taken ++ " in sequence".toList))

/-- The members of a node read so far: the kind of step, and the other members. -/
structure Partial where
  /-- The kind of step. -/
  kind : Option NodeKind := none
  /-- The other members in the order in which they stand. -/
  members : List (Text × Json.Value) := []

/-- One member of a node. -/
def readMember (levels : Nat) (p : Partial) (name : Text) : Json.Reader Partial := fun s => do
  if name = "op".toList then
    if p.kind.isSome then throw (.before (.duplicateField name) s)
    else
      let s ← Json.colon s
      let (kind, s) ← NodeKind.reader s
      return ({ p with kind := some kind }, s)
  else
    let s ← Json.colon s
    let (v, s) ← Json.value levels s
    return ({ p with members := p.members ++ [(name, v)] }, s)

/-- A result of understanding what was read, with the rest of the text. -/
def settle (r : Except Json.Cause Node) : Json.Reader Node := fun s =>
  match r with
  | .ok n => .ok (n, s)
  | .error c => .error (.before c s)

/-- A node as part of a document. -/
def reader (levels : Nat) : Json.Reader Node := fun s => do
  let (seen, s) ← Json.scalar (Json.skipSpace s)
  match seen, levels with
  | .array, 0 | .object, 0 => throw (.after .tooDeep s)
  | .object, levels + 1 =>
    let (p, s) ← Json.foldMembers (readMember levels) (s.length + 1) true {} (s.drop 1)
    match p.kind with
    | none => throw (.before (.missingField "op".toList) s)
    | some kind => settle (ofMembers kind p.members) (s.drop 1)
  | .array, levels + 1 =>
    let (more, s) ← Json.hasItem true (s.drop 1)
    if more then
      let (kind, s) ← NodeKind.reader s
      let (vs, s) ← Json.items (Json.value levels) (s.length + 1) false s
      settle (ofItems kind vs) s
    else throw (.before (.missingField "op".toList) s)
  | seen, _ => throw (.before (.wrongType seen "internally tagged enum Node".toList) s)

/-- A node as a JSON value: the kind of step first, and no function where none is named. -/
def toJson : Node → Json.Value
  | .literal text => .object [("op".toList, .string NodeKind.literal.label),
      ("text".toList, .string text)]
  | .loopOpen block => .object [("op".toList, .string NodeKind.loopOpen.label),
      ("block".toList, .string block)]
  | .loopClose block => .object [("op".toList, .string NodeKind.loopClose.label),
      ("block".toList, .string block)]
  | .varRef name none => .object [("op".toList, .string NodeKind.varRef.label),
      ("name".toList, .string name)]
  | .varRef name (some function) => .object [("op".toList, .string NodeKind.varRef.label),
      ("name".toList, .string name), ("function".toList, .string function)]

end Node

namespace Program

/-- A list of nodes as part of a document. -/
def nodesReader : Nat → Json.Reader (List Node) := Json.array Node.reader

/-- The only field. -/
def fields : List (Json.Field (Option (List Node))) :=
  [.of "nodes".toList true id (fun nodes _ => some nodes) nodesReader]

/-- A program as part of a document. -/
def reader : Nat → Json.Reader Program :=
  Json.record "struct Program".toList fields none fun nodes =>
    (Json.require "nodes".toList nodes).map Program.mk

/-- A program from a document. -/
def parse (document : Text) : Except Json.Error Program := Json.parse reader document

/-- A program as a JSON value. -/
def toJson (p : Program) : Json.Value :=
  .object [("nodes".toList, .array (p.nodes.map Node.toJson))]

end Program

end CommentTemplate
