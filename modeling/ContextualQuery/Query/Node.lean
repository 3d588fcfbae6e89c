import ContextualQuery.Boolean
import ContextualQuery.Clause
import ContextualQuery.PrefixMap

/-! The tree of a query.

    Its leaves are search clauses, its inner nodes join two subtrees by a boolean. Every node is
    numbered in the order of creation, so the nodes below a node have smaller numbers. A node also
    keeps the number of its levels, so that a limit on them is checked without a walk. -/

namespace ContextualQuery

/-- What belongs to a node whatever its shape: its number, the levels of its subtree, the short
    names declared in front of it, and the keys its result is sorted by. -/
structure NodeInfo where
  id : Nat
  height : Nat
  prefixes : PrefixMap := .empty
  sortKeys : List Index := []

/-- A query as a tree. -/
inductive Node where
  | clause (info : NodeInfo) (clause : Clause)
  | triple (info : NodeInfo) (left : Node) (boolean : Boolean) (right : Node)

namespace Node

/-- What belongs to a node whatever its shape. -/
def info : Node → NodeInfo
  | .clause info _ => info
  | .triple info _ _ _ => info

/-- Changes what belongs to a node whatever its shape. -/
def mapInfo (f : NodeInfo → NodeInfo) : Node → Node
  | .clause info c => .clause (f info) c
  | .triple info left boolean right => .triple (f info) left boolean right

/-- The number of a node. -/
def id (n : Node) : Nat := n.info.id

/-- The levels of a tree; a clause has one. -/
def height (n : Node) : Nat := n.info.height

/-- The short names declared in front of a node. -/
def prefixes (n : Node) : PrefixMap := n.info.prefixes

/-- The keys that the result of a node is sorted by. -/
def sortKeys (n : Node) : List Index := n.info.sortKeys

/-- Adds a group of declarations. Those that a node already has are nearer to it and stay. -/
def declare (group : PrefixMap) : Node → Node :=
  mapInfo fun info => { info with prefixes := info.prefixes.withDefaults group }

/-- Sorts the result of a node. -/
def sortBy (keys : List Index) : Node → Node :=
  mapInfo fun info => { info with sortKeys := keys }

/-- The clauses of a tree from left to right. -/
def clauses : Node → List Clause
  | .clause _ c => [c]
  | .triple _ left _ right => left.clauses ++ right.clauses

end Node

end ContextualQuery
