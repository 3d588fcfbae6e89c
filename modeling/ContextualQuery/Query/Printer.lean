import ContextualQuery.Query

/-! The canonical form of a query: every clause written in full, every triple between parentheses,
    and a subquery with declarations or sort keys between parentheses of its own, so that they reach
    no further than it. -/

namespace ContextualQuery

/-- How a declaration is written. -/
def declarationText (name identifier : String) : String :=
  if name.isEmpty then ">" ++ Text.quote identifier else ">" ++ name ++ "=" ++ Text.quote identifier

namespace NodeInfo

/-- Whether anything is attached to a node that must not reach further. -/
def isScoped (info : NodeInfo) : Bool := !info.prefixes.isEmpty || !info.sortKeys.isEmpty

/-- The sort keys behind the keyword that introduces them. -/
def sortWords (info : NodeInfo) : List String :=
  if info.sortKeys.isEmpty then [] else "sortBy" :: info.sortKeys.map Index.text

/-- Declarations, the node itself and sort keys, with spaces in between. -/
def surround (info : NodeInfo) (body : String) : String :=
  " ".intercalate (info.prefixes.entries.map (fun p => declarationText p.1 p.2) ++
    body :: info.sortWords)

/-- The same below another node, where a scope ends with its parentheses. -/
def surroundBelow (info : NodeInfo) (body : String) : String :=
  if info.isScoped then "(" ++ info.surround body ++ ")" else info.surround body

end NodeInfo

namespace Node

/-- How two trees joined by a boolean are written. -/
def joinText (left : String) (boolean : Boolean) (right : String) : String :=
  "(" ++ left ++ " " ++ boolean.text ++ " " ++ right ++ ")"

/-- How a node is written that stands below another. -/
def textBelow : Node → String
  | .clause info c => info.surroundBelow c.text
  | .triple info left boolean right =>
    info.surroundBelow (joinText left.textBelow boolean right.textBelow)

/-- How a whole tree is written. -/
def text : Node → String
  | .clause info c => info.surround c.text
  | .triple info left boolean right =>
    info.surround (joinText left.textBelow boolean right.textBelow)

end Node

/-- The canonical form of a query. -/
def Query.text (q : Query) : String := q.root.text

end ContextualQuery
