import ContextualQuery.Query
import ContextualQuery.Query.Reading

/-! Reading the tree of a query. -/

namespace ContextualQuery

/-- A way to number nodes in the order in which they are created. -/
class Script.Numbers (M : Type → Type) where
  /-- The number of the next node. -/
  newId : M Nat
  /-- How many nodes have been created. The numbering starts anew behind it. -/
  size : M Nat

namespace Script

variable {M : Type → Type} [Monad M] [Numbers M]

/-- A new leaf. -/
def newClause (clause : Clause) : M Node :=
  return .clause { id := ← Numbers.newId, height := 1 } clause

/-- A new node above two trees. -/
def newTriple (left : Node) (boolean : Boolean) (right : Node) : M Node :=
  return .triple { id := ← Numbers.newId, height := 1 + max left.height right.height } left boolean
    right

/-- Trees, built from below. They know nothing of the scopes that are open. -/
def trees : Builder M Node PrefixMap where
  none := .empty
  add := .insert
  declared := id
  clause _ := newClause
  triple := newTriple
  height node := return node.height
  sortBy node keys := return node.sortBy keys
  declare node group := return node.declare group
  outer frames := return frames.map PrefixMap.names
  within _ inner := inner

@[simp] theorem declared_trees (group : PrefixMap) : (trees (M := M)).declared group = group := rfl

variable [Steps M] (rules : Rules)

/-- The tree of a whole query. -/
def tree : M Node := whole rules trees rules.maxDepth

/-- A whole query, read from the lexemes of `source`. The numbering of nodes starts anew behind
    it. -/
def query (source : String) : M Query := do
  let root ← tree rules
  return { source, root, size := ← Numbers.size, defaults := rules.defaultPrefixes }

end Script

namespace Reading

instance : Script.Numbers Reading where
  newId := modifyGet fun s => (s.created, { s with created := s.created + 1 })
  size := modifyGet fun s => (s.created, { s with created := 0 })

abbrev newId : Reading Nat := Script.Numbers.newId

/-- How many nodes have been created. The numbering starts anew behind it. -/
abbrev size : Reading Nat := Script.Numbers.size

abbrev newClause (clause : Clause) : Reading Node := Script.newClause clause

abbrev newTriple (left : Node) (boolean : Boolean) (right : Node) : Reading Node :=
  Script.newTriple left boolean right

variable (rules : Rules)

abbrev declaration (group : PrefixMap) : Reading PrefixMap :=
  Script.declaration rules (Script.trees (M := Reading)) group

abbrev declarations : Reading PrefixMap := Script.declarations rules Script.trees

abbrev clause : Reading Node := Script.clause rules Script.trees []

abbrev join (operand : Reading Node) (left : Node) : Reading Node :=
  Script.join rules Script.trees operand left

abbrev chain (operand : Reading Node) : Reading Node := Script.chain rules Script.trees operand

abbrev subquery (enter : PrefixMap → Reading Node) : Reading Node :=
  Script.subquery rules Script.trees [] enter

abbrev inScope (depth : Nat) (frames : List PrefixMap) (group : PrefixMap) : Reading Node :=
  Script.inScope rules Script.trees depth frames group

abbrev tree : Reading Node := Script.tree rules

abbrev query (source : String) : Reading Query := Script.query rules source

end Reading

end ContextualQuery
