import CommentTemplate.Json.Reader

/-!
# Settings of a compilation

The strictness and the recursion limit of a compilation, with the JSON form they are given in.
-/

namespace CommentTemplate

/-- The recursion limit where none is given. -/
def defaultRecursionLimit : Nat := 10

/-- How a template is compiled. -/
structure Config where
  /-- Missing includes and tags nested too deep are errors. -/
  strict : Bool := false
  /-- The text after every stage is traced. -/
  debug : Bool := false
  /-- Tags at this depth and below are not expanded. -/
  recursionLimit : Nat := defaultRecursionLimit
deriving DecidableEq, Repr

namespace Config

/-- The strict configuration with the default limit. -/
def strictDefault : Config := { strict := true }

/-- The fields of a configuration that were given. -/
structure Partial where
  /-- The field `strict`. -/
  strict : Option Bool := none
  /-- The field `debug`. -/
  debug : Option Bool := none
  /-- The field `recursionLimit`. -/
  recursionLimit : Option Nat := none

/-- The configuration with defaults for what was not given. -/
def Partial.complete (p : Partial) : Config where
  strict := p.strict.getD false
  debug := p.debug.getD false
  recursionLimit := p.recursionLimit.getD defaultRecursionLimit

/-- The fields, each of which may be left out. -/
def fields : List (Json.Field Partial) :=
  [ .of "strict".toList false Partial.strict (fun b p => { p with strict := some b })
      fun _ => Json.bool,
    .of "debug".toList false Partial.debug (fun b p => { p with debug := some b })
      fun _ => Json.bool,
    .of "recursionLimit".toList false Partial.recursionLimit
      (fun n p => { p with recursionLimit := some n }) fun _ => Json.natural ]

/-- A configuration as part of a document. -/
def reader : Nat → Json.Reader Config :=
  Json.record "struct CompilerConfig".toList fields {} fun p => .ok p.complete

/-- A configuration from a document. -/
def parse (document : Text) : Except Json.Error Config := Json.parse reader document

/-- The configuration as a JSON value. -/
def toJson (c : Config) : Json.Value :=
  .object [("strict".toList, .bool c.strict), ("debug".toList, .bool c.debug),
    ("recursionLimit".toList, .int c.recursionLimit)]

end Config

end CommentTemplate
