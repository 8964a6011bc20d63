import CommentTemplate.Text.Basic

/-!
# Paths

A path is a text with components between slashes.  Paths are kept as they are written: joining
them removes nothing, and `.` and `..` mean what the file system makes of them.
-/

namespace CommentTemplate

namespace Path

/-- The components of a path: the texts between its slashes, which may be empty. -/
def components : Text → List Text
  | [] => [[]]
  | c :: t =>
    if c = '/' then [] :: components t
    else
      match components t with
      | [] => [[c]]
      | p :: ps => (c :: p) :: ps

/-- The number of bytes from which on a path is too long. -/
def maxSize : Nat := 4096

/-- Whether a component is short enough to be a name: a name has at most 255 bytes. -/
def fits (component : Text) : Bool := Text.utf8Size component ≤ 255

/-- Components with slashes between them. -/
def ofComponents (cs : List Text) : Text := ['/'].intercalate cs

/-- A path inside a directory.  An absolute path stays as it is. -/
def join (dir path : Text) : Text :=
  if path.head? = some '/' then path
  else if dir = [] ∨ dir.getLast? = some '/' then dir ++ path
  else dir ++ '/' :: path

/-- Components without the trailing ones that name nothing: empty ones, and dots unless a dot is
the whole of a relative path. -/
def dropNothing (reversed : List Text) : List Text :=
  match reversed with
  | [] => []
  | [c] => [c]
  | c :: cs => if c = [] ∨ c = ['.'] then dropNothing cs else c :: cs

/-- The directory that a path names something in; empty for a single component. -/
def parent (path : Text) : Text :=
  match (dropNothing (dropNothing (components path).reverse).tail).reverse with
  | [] => []
  | [[]] => if path.head? = some '/' then ['/'] else []
  | cs => ofComponents cs

end Path

end CommentTemplate
