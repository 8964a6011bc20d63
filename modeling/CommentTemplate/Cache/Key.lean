import CommentTemplate.Compiler
import CommentTemplate.Digest.Sha256

/-!
# Keys of compilations

A compilation is identified by a hash of the template and of everything in the settings.  Included
texts are not part of it.

The options are written as canonical JSON, so the key does not depend on the order in which
replacements and removals were set.
-/

namespace CommentTemplate

/-- The version of this engine. -/
def engineVersion : Text := "1.0.0".toList

/-- The key of a template compiled with some options. -/
def compileKey (source : Text) (options : Json.Value) : Text :=
  sha256Hex (sha256Hex source ++ ':' :: options.canonicalText)

namespace Settings

/-- Everything that a compilation depends on besides the template and its includes. -/
def options (s : Settings) : Json.Value :=
  .object
    [ ("engineVersion".toList, .string engineVersion),
      ("config".toList, s.config.toJson),
      ("replacements".toList,
        .object (s.replacements.entries.map fun e => (e.1, .string e.2))),
      ("removals".toList, .strings s.removals.keys) ]

/-- The key of a template compiled with these settings. -/
def keyFor (s : Settings) (source : Text) : Text := compileKey source s.options

end Settings

end CommentTemplate
