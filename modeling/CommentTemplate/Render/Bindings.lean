import CommentTemplate.Json.Reader

/-!
# Bindings

What a program is rendered with: values for its variables, and for each block the scopes of its
turns.  Both are read from one JSON object with the optional fields `values` and `blocks`.
-/

namespace CommentTemplate

open Json (Scope)

/-- Values for variables, and scopes for the turns of blocks. -/
structure Bindings where
  /-- Values that hold everywhere. -/
  values : Scope := Dict.empty
  /-- One scope for each turn of a block. -/
  blocks : Dict (List Scope) := Dict.empty

namespace Bindings

/-- The bindings with one more value. -/
def set (b : Bindings) (name : Text) (v : Json.Value) : Bindings :=
  { b with values := b.values.insert name v }

/-- The bindings with more values, which win over those there are. -/
def extendValues (b : Bindings) (values : Scope) : Bindings :=
  { b with values := b.values.overriddenBy values }

/-- The bindings with one more turn of a block. -/
def pushIteration (b : Bindings) (block : Text) (scope : Scope) : Bindings :=
  { b with blocks := b.blocks.insert block ((b.blocks.find? block).getD [] ++ [scope]) }

/-- A scope as part of a document. -/
def scopeReader : Nat → Json.Reader Scope := Json.dict Json.value

/-- The scopes of the blocks as part of a document. -/
def blocksReader : Nat → Json.Reader (Dict (List Scope)) := Json.dict (Json.array scopeReader)

/-- The fields that were given. -/
structure Partial where
  /-- The field `values`. -/
  values : Option Scope := none
  /-- The field `blocks`. -/
  blocks : Option (Dict (List Scope)) := none

/-- The fields, each of which may be left out. -/
def fields : List (Json.Field Partial) :=
  [ .of "values".toList false Partial.values (fun v p => { p with values := some v }) scopeReader,
    .of "blocks".toList false Partial.blocks (fun v p => { p with blocks := some v })
      blocksReader ]

/-- Bindings as part of a document. -/
def reader : Nat → Json.Reader Bindings :=
  Json.record "struct Bindings".toList fields {} fun p =>
    .ok { values := p.values.getD Dict.empty, blocks := p.blocks.getD Dict.empty }

/-- Bindings from a document. -/
def parse (document : Text) : Except Json.Error Bindings := Json.parse reader document

/-- A scope as a JSON value. -/
def scopeJson (s : Scope) : Json.Value := .ofDict s

/-- The scopes of the blocks as a JSON value. -/
def blocksJson (b : Bindings) : Json.Value :=
  .object (b.blocks.entries.map fun e => (e.1, .array (e.2.map scopeJson)))

/-- Bindings as a JSON value. -/
def toJson (b : Bindings) : Json.Value :=
  .object [("values".toList, scopeJson b.values), ("blocks".toList, b.blocksJson)]

end Bindings

end CommentTemplate
