import CommentTemplate.Tag.Form
import CommentTemplate.Json.Reader

/-!
# Kinds of tag as JSON

A kind of tag is written as its label.  It is also read from an object whose only member is the
label with the value null.
-/

namespace CommentTemplate

namespace TagKind

/-- All kinds of tag. -/
def all : List TagKind := [.includes, .block, .replacement, .placeholder]

/-- A label as the kind it stands for. -/
def labelReader : Json.Reader TagKind := fun s => do
  let (label, s) ← Json.expecting "variant identifier".toList (fun
    | .string s => some s
    | _ => none) s
  match ofLabel? label with
  | some kind => return (kind, s)
  | none => throw (.before (.unknownVariant label (all.map TagKind.label)) s)

/-- The value null. -/
def nullReader : Json.Reader Unit :=
  Json.expecting "unit".toList fun
    | .null => some ()
    | _ => none

/-- A kind of tag as part of a document. -/
def reader (levels : Nat) : Json.Reader TagKind := fun s =>
  match Json.skipSpace s with
  | [] => .error (.before .endInValue [])
  | '"' :: t => labelReader ('"' :: t)
  | '{' :: t =>
    match levels with
    | 0 => .error (.after .tooDeep ('{' :: t))
    | _ + 1 => do
      let (kind, s) ← labelReader t
      let s ← Json.colon s
      let (_, s) ← nullReader s
      match Json.skipSpace s with
      | [] => throw (.before .endInObject [])
      | '}' :: t => return (kind, t)
      | s => throw (.after .noValue s)
  | s => .error (.after .noValue s)

/-- A kind of tag from a document. -/
def parse (document : Text) : Except Json.Error TagKind := Json.parse reader document

end TagKind

end CommentTemplate
