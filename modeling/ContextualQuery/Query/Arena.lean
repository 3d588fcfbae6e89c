import ContextualQuery.ContextSet
import ContextualQuery.Query

/-! Queries whose nodes are stored in one list.

    A node is known by its number, which is its place in the list. A triple holds the numbers of its
    operands, and each node the number of the node above it. That number is not there from the start:
    a node is stored without one, and is given one when a triple is stored above it.

        b = c or d      0  clause b = c   above: 2
                        1  clause d       above: 2
                        2  triple 0 or 1

    Walks through an arena are bounded by the number of nodes. -/

namespace ContextualQuery

/-- What a stored node stands for. -/
inductive Slot.Kind where
  | clause (clause : Clause)
  /-- Two nodes joined by a boolean, by their numbers. -/
  | triple (left : Nat) (boolean : Boolean) (right : Nat)

/-- A stored node. -/
structure Slot where
  kind : Slot.Kind
  /-- The short names declared in front of it. -/
  prefixes : PrefixMap := .empty
  sortKeys : List Index := []
  /-- The number of the node above it, if there is one. -/
  parent : Option Nat := none
  /-- The levels of its subtree; a clause has one. -/
  height : Nat := 1

/-- The clause that a stored node is. -/
def Slot.clause? (slot : Slot) : Option Clause :=
  match slot.kind with
  | .clause c => some c
  | .triple .. => none

/-- The nodes that were created in reading one text, in the order of creation. -/
structure Arena where
  nodes : List Slot := []

namespace Arena

variable (a : Arena)

/-- Stores a node behind the others. Its number is how many there were before. -/
def push (slot : Slot) : Nat × Arena := (a.nodes.length, ⟨a.nodes ++ [slot]⟩)

/-- Changes the node of a number. -/
def modify (id : Nat) (f : Slot → Slot) : Arena := ⟨a.nodes.modify id f⟩

/-- The levels below a node, itself included. -/
def height (id : Nat) : Nat := (a.nodes[id]?).elim 0 (·.height)

/-- Stores a clause. -/
def clause (c : Clause) : Nat × Arena := a.push { kind := .clause c }

/-- Stores a triple, and its number as the one above both operands. -/
def triple (left : Nat) (boolean : Boolean) (right : Nat) : Nat × Arena :=
  let height := 1 + max (a.height left) (a.height right)
  let (id, a) := a.push { kind := .triple left boolean right, height }
  let below (slot : Slot) : Slot := { slot with parent := some id }
  (id, (a.modify left below).modify right below)

/-- What the node of a number stands for. -/
def kind? (id : Nat) : Option Slot.Kind := (a.nodes[id]?).map Slot.kind

/-- The number above a node. -/
def parent? (id : Nat) : Option Nat := (a.nodes[id]?).bind (·.parent)

/-- The numbers directly below a node. -/
def children (id : Nat) : List Nat :=
  match a.kind? id with
  | some (.triple left _ right) => [left, right]
  | _ => []

/-- The clauses below a node from left to right. -/
def clauses : Nat → Nat → List Clause
  | 0, _ => []
  | fuel + 1, id =>
    match a.kind? id with
    | some (.clause c) => [c]
    | some (.triple left _ right) => clauses fuel left ++ clauses fuel right
    | none => []

/-- What the nearest declaration of a short name binds it to, at a node or above it. -/
def lookup (name : String) : Nat → Nat → Option String
  | 0, _ => none
  | fuel + 1, id =>
    (a.nodes[id]?).bind fun slot => (slot.prefixes.get? name).or (slot.parent.bind (lookup name fuel))

/-- The tree below a node. -/
def tree? : Nat → Nat → Option Node
  | 0, _ => none
  | fuel + 1, id => do
    let slot ← a.nodes[id]?
    let info := { id, height := slot.height, prefixes := slot.prefixes, sortKeys := slot.sortKeys }
    match slot.kind with
    | .clause c => return .clause info c
    | .triple left boolean right =>
      return .triple info (← tree? fuel left) boolean (← tree? fuel right)

end Arena

/-- A query whose nodes are stored. -/
structure StoredQuery where
  source : String
  arena : Arena
  root : Nat
  defaults : PrefixMap

namespace StoredQuery

variable (q : StoredQuery)

/-- The number of stored nodes. -/
def len : Nat := q.arena.nodes.length

/-- The clauses from left to right. -/
def clauses : List Clause := q.arena.clauses q.len q.root

/-- The identifier that a short name stands for at a node. -/
def resolve (id : Nat) (name : String) : Option String :=
  (q.arena.lookup name q.len id).or <|
    (ContextSet.reserved? (Unicode.lowercase name)).or (q.defaults.get? name)

/-- The identifier of the context set that the index of a clause belongs to. -/
def contextSet (id : Nat) : Option String := do
  let clause ← (← q.arena.nodes[id]?).clause?
  q.resolve id clause.index.name.set

/-- The same query as a tree. -/
def query? : Option Query :=
  (q.arena.tree? q.len q.root).map fun root =>
    { source := q.source, root, size := q.len, defaults := q.defaults }

end StoredQuery

end ContextualQuery
