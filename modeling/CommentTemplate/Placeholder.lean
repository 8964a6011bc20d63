import CommentTemplate.Program.Basic
import CommentTemplate.Tag.Form

/-!
# Placeholders

Placeholders in literal text become variable references.  Text on either side of them stays
literal; literals that come to stand side by side are merged, and the merged text is not searched
again.
-/

namespace CommentTemplate

/-- The reference that a placeholder stands for. -/
def Placeholder.node (p : Placeholder) : Node := .varRef p.name p.function

/-- A scanned text as nodes, in front of further ones. -/
def scanNodes (scan : Scan Placeholder) (back : List Node) : List Node :=
  scan.found.foldr (fun f nodes => prependLiteral f.before (f.tag.node :: nodes))
    (prependLiteral scan.tail back)

/-- The nodes of a text, in front of further ones. -/
def placeholderNodes (text : Text) (back : List Node) : List Node :=
  scanNodes (placeholderTag.scan text) back

/-- The names of the placeholders of a text, one for each occurrence. -/
def placeholderNames (text : Text) : List Text :=
  (placeholderTag.scan text).found.map fun f => f.tag.name

/-- Nodes with every literal split around its placeholders. -/
def expandPlaceholders : List Node → List Node
  | [] => []
  | .literal text :: nodes => placeholderNodes text (expandPlaceholders nodes)
  | n :: nodes => n :: expandPlaceholders nodes

/-- The names of the placeholders in the literals of some nodes, one for each occurrence. -/
def placeholdersOf (nodes : List Node) : List Text :=
  nodes.flatMap fun
    | .literal text => placeholderNames text
    | _ => []

end CommentTemplate
