import ContextualQuery.Json
import ContextualQuery.Query.JsonView
import ContextualQuery.Query.Printer
import ContextualQuery.Query.Session
import ContextualQuery.Search.Compile
import ContextualQuery.Search.ResultSet
import ContextualQuery.Settings

/-! Checking a query text: is it a query, and what search string does it stand for? -/

namespace ContextualQuery

/-- What a check finds out about a text that passes it. -/
inductive Outcome where
  | parsed (query : Query)
  | compiled (query : Query) (search : String) (resultSet : Option String)

namespace Outcome

/-- The query that was checked. -/
def query : Outcome → Query
  | .parsed q | .compiled q _ _ => q

/-- An outcome as data, its members in the order of their names. -/
def json : Outcome → Json
  | .parsed q => .object [("ast", q.json), ("cql", .string q.text), ("query", .string q.source)]
  | .compiled q search resultSet => .object [
      ("ast", q.json), ("cql", .string q.text), ("es", .string search),
      ("query", .string q.source), ("resultSetId", .ofOption resultSet)]

/-- An outcome in lines of text. -/
def text : Outcome → String
  | .parsed q => q.text ++ "\n"
  | .compiled _ search resultSet =>
    search ++ "\n" ++ resultSet.elim "" fun id => "resultSetId: " ++ id ++ "\n"

end Outcome

/-- Checks a text. Without compiling, what a backend cannot do is no fault. -/
def check (settings : Settings) (parseOnly : Bool) (source : String) :
    Except Diagnostic Outcome := do
  let query ← parse settings.rules source
  if parseOnly then return .parsed query
  let search ← query.compile settings.fields
  return .compiled query search query.resultSet?

end ContextualQuery
