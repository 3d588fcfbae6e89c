/-! Context sets: the vocabularies that index, relation and modifier names come from. A query
    refers to a set by a short name; three short names are known without being declared. -/

namespace ContextualQuery.ContextSet

/-- The identifier of the set that the query language itself defines. -/
def cql : String := "info:srw/cql-context-set/1/cql-v1.1"

/-- The identifier of the Dublin Core set. -/
def dublinCore : String := "info:srw/cql-context-set/1/dc-v1.1"

/-- The identifier of the older set of search indexes. -/
def searchIndexes : String := "http://www.loc.gov/zing/cql/srw-indexes/v1.0/"

/-- The short name of the language's own set. -/
def cqlName : String := "cql"

/-- The identifier behind a reserved short name. -/
def reserved? (name : String) : Option String :=
  if name = cqlName then some cql
  else if name = "dc" then some dublinCore
  else if name = "srw" then some searchIndexes
  else none

end ContextualQuery.ContextSet
