import CommentTemplate.Compiler
import CommentTemplate.Program.Json
import CommentTemplate.Instant

/-!
# Cache entries

A compiled template with the key it was compiled under, the version of the engine and the time.
It is stored as an indented JSON object.
-/

namespace CommentTemplate

/-- A stored compilation. -/
structure CacheEntry where
  /-- The key of the compilation. -/
  key : Text
  /-- The version of the engine that compiled it. -/
  engineVersion : Text
  /-- When it was compiled. -/
  compiledAt : Instant
  /-- The names of the blocks. -/
  blocks : List Text
  /-- The names of the placeholders. -/
  placeholders : List Text
  /-- The program. -/
  program : Program
deriving DecidableEq, Repr

namespace CacheEntry

/-- An instant as part of a document. -/
def instantReader : Json.Reader Instant := fun s => do
  let (text, s) ← Json.expecting "an RFC 3339 formatted date and time string".toList (fun
    | .string s => some s
    | _ => none) s
  match Instant.parse? text with
  | some i => return (i, s)
  | none => throw (.before .badInstant s)

/-- A list of names as part of a document. -/
def namesReader : Nat → Json.Reader (List Text) := Json.array fun _ => Json.string

/-- The fields that were given. -/
structure Partial where
  key : Option Text := none
  engineVersion : Option Text := none
  compiledAt : Option Instant := none
  blocks : Option (List Text) := none
  placeholders : Option (List Text) := none
  program : Option Program := none

/-- The fields, all of which are required. -/
def fields : List (Json.Field Partial) :=
  [ .of "key".toList true Partial.key (fun x p => { p with key := some x }) fun _ => Json.string,
    .of "engineVersion".toList true Partial.engineVersion
      (fun x p => { p with engineVersion := some x }) fun _ => Json.string,
    .of "compiledAt".toList true Partial.compiledAt
      (fun x p => { p with compiledAt := some x }) fun _ => instantReader,
    .of "blocks".toList true Partial.blocks (fun x p => { p with blocks := some x }) namesReader,
    .of "placeholders".toList true Partial.placeholders
      (fun x p => { p with placeholders := some x }) namesReader,
    .of "program".toList true Partial.program (fun x p => { p with program := some x })
      Program.reader ]

/-- The entry of which all fields were given. -/
def Partial.complete (p : Partial) : Except Json.Cause CacheEntry := do
  return {
    key := ← Json.require "key".toList p.key
    engineVersion := ← Json.require "engineVersion".toList p.engineVersion
    compiledAt := ← Json.require "compiledAt".toList p.compiledAt
    blocks := ← Json.require "blocks".toList p.blocks
    placeholders := ← Json.require "placeholders".toList p.placeholders
    program := ← Json.require "program".toList p.program }

/-- An entry as part of a document. -/
def reader : Nat → Json.Reader CacheEntry :=
  Json.record "struct CacheEntry".toList fields {} Partial.complete

/-- An entry from a document. -/
def parse (document : Text) : Except Json.Error CacheEntry := Json.parse reader document

/-- An entry as a JSON value, its fields in declared order. -/
def toJson (e : CacheEntry) : Json.Value :=
  .object
    [ ("key".toList, .string e.key),
      ("engineVersion".toList, .string e.engineVersion),
      ("compiledAt".toList, .string e.compiledAt.text),
      ("blocks".toList, .strings e.blocks),
      ("placeholders".toList, .strings e.placeholders),
      ("program".toList, e.program.toJson) ]

/-- The stored form of an entry. -/
def document (e : CacheEntry) : Text := e.toJson.pretty

end CacheEntry

end CommentTemplate
