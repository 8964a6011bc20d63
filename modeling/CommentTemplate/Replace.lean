import CommentTemplate.Policy
import CommentTemplate.Tag.Pair

/-!
# Replacement tags

A replacement tag is cut out of the text, and its content becomes the replacement for the block of
its name.  Tags nested in it are cut out of its content first.  Of several tags of one name the
last to be closed counts.
-/

namespace CommentTemplate

/-- Contents for blocks, by name. -/
abbrev Replacements := Dict Text

/-- The text without its replacement tags and the contents given by them, added to `found`; all of
this for a text nested in `depth` replacement tags. -/
def extractAt (policy : Policy) (depth : Nat) (found : Replacements) (s : Text) :
    Except CompileError (Text × Replacements) :=
  match h : nextReplace s with
  | none => .ok (s, found)
  | some tag =>
    have : tag.body.length < s.length := nextPair_body_lt h
    have : tag.after.length < s.length := nextPair_after_lt h
    match policy.descend .replacement depth with
    | .error e => .error e
    | .ok .truncate => .ok (s, found)
    | .ok .enter => do
      let (content, found) ← extractAt policy (depth + 1) found tag.body
      let (rest, found) ← extractAt policy depth (found.insert tag.name content) tag.after
      return (tag.before ++ rest, found)
termination_by s.length

/-- The text without its replacement tags, and the contents given by them. -/
def extractReplacements (policy : Policy) (s : Text) :
    Except CompileError (Text × Replacements) :=
  extractAt policy 0 Dict.empty s

end CommentTemplate
