import CommentTemplate.Tag.Scan

/-!
# The forms of a tag

Four forms of directive are recognised in template text.

* `<!-- INCLUDE path -->`
* `<!-- BEGIN name -->` and `<!-- END name -->`, or `<!-- [name] -->` and `<!-- [/name] -->`
* `<!-- REPLACE name -->` and `<!-- /REPLACE -->`
* `{name}` and `{name:function}`

## Design decisions

**Words and gaps.**  The keywords are read in either ASCII case.  Between the words of a comment
tag stand one or more blank characters of any kind, line ends included.

**Names.**  Names in keyword tags are compared without regard to case when a character is checked
for membership, and in Unicode two characters outside ASCII fold to ASCII letters: U+017F (long s)
and U+212A (the Kelvin sign).  Both therefore count as name characters.  Bracket names are freer:
anything but a slash and a closing bracket.

**Delimiters.**  The opening and closing tags of a pair are found one by one as `Delimiter`s.
Which of them belong together is the business of `CommentTemplate.Tag.Pair`.
-/

namespace CommentTemplate

/-- The kinds of tag. -/
inductive TagKind where
  /-- Text taken from another source. -/
  | includes
  /-- A named block, repeated once per binding of its name. -/
  | block
  /-- Content for a block of the same name. -/
  | replacement
  /-- A variable reference. -/
  | placeholder
deriving DecidableEq, Repr

/-- The upper-case word for a kind of tag. -/
def TagKind.label : TagKind → Text
  | .includes => "INCLUDE".toList
  | .block => "BLOCK".toList
  | .replacement => "REPLACE".toList
  | .placeholder => "PLACEHOLDER".toList

/-- The kind with a given label. -/
def TagKind.ofLabel? (label : Text) : Option TagKind :=
  [.includes, .block, .replacement, .placeholder].find? (·.label = label)

/-- A kind is read back from its label. -/
@[simp] theorem TagKind.ofLabel?_label (k : TagKind) : ofLabel? k.label = some k := by
  cases k <;> decide

/-! ## Character classes -/

/-- An ASCII letter or digit. -/
def isAsciiAlphanum (c : Char) : Bool := c.isAlphanum

/-- A character of a block or replacement name. -/
def isNameChar (c : Char) : Bool :=
  isAsciiAlphanum c || c = '_' || c = '-' || c = '\u017F' || c = '\u212A'

/-- A character of a bracketed block name. -/
def isBracketNameChar (c : Char) : Bool := c ≠ '/' && c ≠ ']'

/-- A character of a placeholder's name. -/
def isPlaceholderChar (c : Char) : Bool := isAsciiAlphanum c || c = '.' || c = '_' || c = '-'

/-- The first character of a function name. -/
def isFunctionStart (c : Char) : Bool := c.isAlpha || c = '_'

/-- A later character of a function name. -/
def isFunctionChar (c : Char) : Bool := isAsciiAlphanum c || c = '_'

/-! ## Comment tags -/

/-- A comment tag: its content between `<!--` and `-->`, set off by blanks on both sides. -/
def commentTag {α : Type} (content : Piece α) : Recognizer α :=
  .opening "<!--".toList (by decide)
    (((Piece.blanks.andThen content).andThen (Piece.blanks.andThen (.exact "-->".toList))).map
      fun r => r.1.2)

/-- A keyword, blanks and what the keyword is about. -/
def keyworded {α : Type} (word : Text) (p : Piece α) : Piece α :=
  ((Piece.keyword word).andThen (Piece.blanks.andThen p)).map fun r => r.2.2

/-- An include tag: the path it names. -/
def includeTag : Recognizer Text :=
  commentTag (keyworded "include".toList (.many1 fun c => !isBlank c))

/-! ## Delimiters of paired tags -/

/-- The ways of writing a paired tag.  Only delimiters of one style belong together. -/
inductive Delimiter.Style where
  /-- Opened by `BEGIN` and closed by `END`. -/
  | keyword
  /-- The name in brackets. -/
  | bracket
  /-- Opened by `REPLACE` and closed by `/REPLACE`, which names nothing. -/
  | replacement
deriving DecidableEq, Repr

/-- One end of a paired tag. -/
structure Delimiter where
  /-- How it is written. -/
  style : Delimiter.Style
  /-- Whether it opens a tag. -/
  opening : Bool
  /-- The name it carries; empty where the style has no name at this end. -/
  name : Text
deriving DecidableEq, Repr

/-- Whether two delimiters are ends of the same tag: of one style, and of one name except for
replacement tags, whose closing end is anonymous. -/
def Delimiter.sameTag (d e : Delimiter) : Bool :=
  d.style = e.style && (d.style = .replacement || d.name = e.name)

/-- `BEGIN name` or `END name`. -/
def keywordDelimiter : Piece Delimiter :=
  let worded (word : Text) (opening : Bool) :=
    (keyworded word (.many1 isNameChar)).map fun name => Delimiter.mk .keyword opening name
  (worded "begin".toList true).orElse (worded "end".toList false)

/-- `[name]` or `[/name]`. -/
def bracketDelimiter : Piece Delimiter :=
  (((Piece.exact ['[']).andThen (.optional (.exact ['/']))).andThen
    ((Piece.many1 isBracketNameChar).andThen (.exact [']']))).map
      fun r => ⟨.bracket, r.1.2.isNone, r.2.1⟩

/-- One end of a block tag. -/
def blockDelimiter : Recognizer Delimiter :=
  commentTag (keywordDelimiter.orElse bracketDelimiter)

/-- One end of a replacement tag. -/
def replaceDelimiter : Recognizer Delimiter :=
  commentTag
    (((keyworded "replace".toList (.many1 isNameChar)).map fun name =>
        Delimiter.mk .replacement true name).orElse
      ((Piece.keyword "/replace".toList).map fun _ => ⟨.replacement, false, []⟩))

/-! ## Placeholders -/

/-- A variable reference: its name and, after a colon, the name of a function. -/
structure Placeholder where
  /-- The variable. -/
  name : Text
  /-- The function, if one is named. -/
  function : Option Text
deriving DecidableEq, Repr

/-- The name of a function: a letter or underscore, then letters, digits and underscores. -/
def functionName : Piece Text :=
  ((Piece.one isFunctionStart).andThen (.many isFunctionChar)).map fun r => r.1 :: r.2

/-- A placeholder in braces. -/
def placeholderTag : Recognizer Placeholder :=
  .opening ['{'] (by decide)
    ((((Piece.many1 isPlaceholderChar).andThen
        (.optional (((Piece.exact [':']).andThen functionName).map Prod.snd))).andThen
      (.exact ['}'])).map fun r => ⟨r.1.1, r.1.2⟩)

end CommentTemplate
