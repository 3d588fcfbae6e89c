import ContextualQuery.ContextSet
import ContextualQuery.Query.Node

/-! What short names mean at a node: the innermost declaration around it counts, then what the
    language reserves, then what is assumed from outside. -/

namespace ContextualQuery

/-- The declarations around a place, innermost first, and the assumptions from outside. -/
structure Scope where
  enclosing : List PrefixMap := []
  defaults : PrefixMap := .empty

namespace Scope

/-- The scope inside a node that declares `group`. -/
def enter (s : Scope) (group : PrefixMap) : Scope :=
  { s with enclosing := group :: s.enclosing }

/-- The identifier that a short name stands for. -/
def resolve (s : Scope) (name : String) : Option String :=
  (s.enclosing.findSome? (·.get? name)).or <|
    (ContextSet.reserved? (Unicode.lowercase name)).or (s.defaults.get? name)

end Scope

/-- A node where it stands: below which node, and in which scope. -/
structure Place where
  node : Node
  parent : Option Nat
  around : Scope

/-- All nodes of a tree where they stand, each before those below it and left before right. -/
def Node.places (parent : Option Nat) (around : Scope) : Node → List Place
  | .clause info c => [⟨.clause info c, parent, around⟩]
  | .triple info left boolean right =>
    let inner := around.enter info.prefixes
    ⟨.triple info left boolean right, parent, around⟩ ::
      (left.places (some info.id) inner ++ right.places (some info.id) inner)

namespace Place

/-- The scope inside a node, its own declarations included. -/
def scope (p : Place) : Scope := p.around.enter p.node.prefixes

/-- The identifier of the context set that the index at a place belongs to. -/
def contextSet (p : Place) : Option String :=
  match p.node with
  | .clause _ c => p.scope.resolve c.index.name.set
  | .triple .. => none

end Place

end ContextualQuery
