import ContextualQuery.Query.Scope

/-! Queries that have been read. -/

namespace ContextualQuery

/-- A query: the text it was read from, its tree, the number of nodes created in reading it, and
    what short names are assumed to mean that it does not declare. -/
structure Query where
  source : String
  root : Node
  size : Nat
  defaults : PrefixMap

namespace Query

/-- The scope around the whole query. -/
def scope (q : Query) : Scope := { defaults := q.defaults }

/-- The nodes of a query where they stand. -/
def places (q : Query) : List Place := q.root.places none q.scope

/-- The clauses of a query from left to right. -/
def clauses (q : Query) : List Clause := q.root.clauses

end Query

end ContextualQuery
