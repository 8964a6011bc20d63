import CommentTemplate.Tag.Pair

/-!
# Located tags

Where the tags of a text are, in byte offsets of its UTF-8 form.  For a paired tag the span runs
from the opening end through the closing end.

Includes and placeholders are found all at once.  Paired tags are found one at a time from an
offset on, and `LocatedTag.blocksFrom` and `LocatedTag.replacementsFrom` repeat that search from
the end of each tag.
-/

namespace CommentTemplate

/-- A tag and its place in a text. -/
structure LocatedTag where
  /-- The kind of tag. -/
  kind : TagKind
  /-- The path, block name or variable. -/
  name : Text
  /-- The function of a placeholder. -/
  function : Option Text
  /-- The text between the ends of a paired tag. -/
  body : Option Text
  /-- The offset of the first byte. -/
  start : Nat
  /-- The offset after the last byte. -/
  stop : Nat
deriving DecidableEq, Repr

namespace LocatedTag

/-- All include tags, left to right. -/
def includes (s : Text) : List LocatedTag :=
  (Scan.spans 0 (includeTag.scan s).found).map fun r =>
    ⟨.includes, r.1, none, none, r.2.1, r.2.2⟩

/-- All placeholders, left to right. -/
def placeholders (s : Text) : List LocatedTag :=
  (Scan.spans 0 (placeholderTag.scan s).found).map fun r =>
    ⟨.placeholder, r.1.name, r.1.function, none, r.2.1, r.2.2⟩

/-- A pair cut from the text that starts at byte `offset`. -/
def ofPair (kind : TagKind) (offset : Nat) (p : TextPair) : LocatedTag :=
  let start := offset + Text.utf8Size p.before
  ⟨kind, p.name, none, some p.body, start,
    start + Text.utf8Size p.opener + Text.utf8Size p.body + Text.utf8Size p.closer⟩

/-- The first complete block at or after byte `offset`. -/
def nextBlockFrom (s : Text) (offset : Nat) : Option LocatedTag :=
  (nextBlock (Text.dropBytes offset s)).map (ofPair .block offset)

/-- The first complete replacement tag at or after byte `offset`. -/
def nextReplaceFrom (s : Text) (offset : Nat) : Option LocatedTag :=
  (nextReplace (Text.dropBytes offset s)).map (ofPair .replacement offset)

/-- Complete tags one after the other in a text that starts at byte `offset`. -/
def pairs (r : Recognizer Delimiter) (kind : TagKind) (offset : Nat) (s : Text) :
    List LocatedTag :=
  match h : nextPair r s with
  | none => []
  | some p =>
    have : p.after.length < s.length := nextPair_after_lt h
    let tag := ofPair kind offset p
    tag :: pairs r kind tag.stop p.after
termination_by s.length

/-- Complete blocks one after the other, from byte `offset` on. -/
def blocksFrom (s : Text) (offset : Nat) : List LocatedTag :=
  pairs blockDelimiter .block offset (Text.dropBytes offset s)

/-- Complete replacement tags one after the other, from byte `offset` on. -/
def replacementsFrom (s : Text) (offset : Nat) : List LocatedTag :=
  pairs replaceDelimiter .replacement offset (Text.dropBytes offset s)

end LocatedTag

end CommentTemplate
