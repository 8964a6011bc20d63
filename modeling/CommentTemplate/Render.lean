import CommentTemplate.Render.Loop

/-!
# Rendering

A program is run against bindings.  Literals are written as they are.  A variable is looked up in
the scopes around it, the innermost first and the values that hold everywhere last.  A loop runs
its body once for each scope of its collection, with that scope as the innermost one.

## Main definitions

* `showVariable` — the text of a variable
* `collection` — the scopes that a loop runs over
* `renderNodes` — the text of a stretch of nodes
* `render` — the text of a program

## Design decisions

**Positions.**  The partners are positions in the whole program, so a stretch of nodes is rendered
together with the position at which it starts.  The body of a loop is the part of the stretch in
front of the closing marker, whose position the partners give.
-/

namespace CommentTemplate

open Json (Scope)

/-- The value of a name in the innermost scope that binds it. -/
def lookupScopes (name : Text) (scopes : List Scope) : Option Json.Value :=
  scopes.findSome? (Dict.find? name)

/-- The text of a value: strings as they are, nothing for null, anything else as JSON. -/
def showValue : Json.Value → Text
  | .string s => s
  | .null => []
  | v => v.compact

/-- The text of a variable.  One without a value is an error if that is asked for, and empty
otherwise. -/
def showVariable (strict : Bool) (name : Text) (scopes : List Scope) : Except RenderError Text :=
  match lookupScopes name scopes with
  | some v => .ok (showValue v)
  | none => if strict then .error (.undefinedVariable name) else .ok []

/-- The scope that an object makes. -/
def scopeOf : Json.Value → Option Scope
  | .object members => some (Dict.ofList members)
  | _ => none

/-- The scopes of a loop over a block: those of the innermost scope that binds the name, which has
to be an array of objects; otherwise those bound to the block as such; otherwise none. -/
def collection (b : Bindings) (block : Text) (scopes : List Scope) :
    Except RenderError (List Scope) :=
  match lookupScopes block scopes with
  | some (.array items) =>
    match items.mapM scopeOf with
    | some turns => .ok turns
    | none => .error (.notACollection block)
  | some _ => .error (.notACollection block)
  | none => .ok ((b.blocks.find? block).getD [])

/-- The text of nodes that start at position `i` of a program, within some scopes. -/
def renderNodes (strict : Bool) (b : Bindings) (partners : Partners) (i : Nat)
    (nodes : List Node) (scopes : List Scope) : Except RenderError Text :=
  match nodes with
  | [] => .ok []
  | .literal text :: rest => do
    let after ← renderNodes strict b partners (i + 1) rest scopes
    return text ++ after
  | .varRef name _ :: rest => do
    let text ← showVariable strict name scopes
    let after ← renderNodes strict b partners (i + 1) rest scopes
    return text ++ after
  | .loopOpen block :: rest => do
    let size := (partners.closeOf i).getD 0 - (i + 1)
    let turns ← collection b block scopes
    let texts ← turns.mapM fun turn =>
      renderNodes strict b partners (i + 1) (rest.take size) (turn :: scopes)
    let after ← renderNodes strict b partners (i + 1 + size + 1) (rest.drop (size + 1)) scopes
    return texts.flatten ++ after
  | .loopClose block :: _ => .error (.unbalancedLoop block)
termination_by nodes.length
decreasing_by all_goals simp only [List.length_cons, List.length_take, List.length_drop]; omega

/-- The text of a program, or why there is none.  Where `strict` holds, a variable without a value
is an error. -/
def render (strict : Bool) (p : Program) (b : Bindings) : Except RenderError Text := do
  let partners ← loopPartners p.nodes
  renderNodes strict b partners 0 p.nodes [b.values]

end CommentTemplate
