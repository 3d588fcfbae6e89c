import ContextualQuery.Query

/-! Queries that only name a stored result set, and so can be answered without the backend: clauses
    that all name the same set, joined by `and` and `or`. -/

namespace ContextualQuery

/-- The name of the index of result sets. -/
def resultSetIndex : String := "resultsetid"

/-- The result set that a clause names. -/
def Clause.resultSet? (scope : Scope) (c : Clause) : Option String :=
  if scope.resolve c.index.name.set = some ContextSet.cql ∧
      Text.sameFold c.index.name.base resultSetIndex then
    some c.term.unquoted
  else none

/-- The result set that a tree names. -/
def Node.resultSet? (scope : Scope) : Node → Option String
  | .clause info c => c.resultSet? (scope.enter info.prefixes)
  | .triple info left boolean right =>
    match boolean.connective with
    | .not | .prox => none
    | .and | .or => do
      let inner := scope.enter info.prefixes
      let one ← left.resultSet? inner
      let other ← right.resultSet? inner
      if one = other then some one else none

/-- The result set that the subtree at a place names. -/
def Place.resultSet? (p : Place) : Option String := p.node.resultSet? p.around

/-- The result set that a query names. -/
def Query.resultSet? (q : Query) : Option String := q.root.resultSet? q.scope

end ContextualQuery
