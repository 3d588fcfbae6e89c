import ContextualQuery.Diagnostic
import ContextualQuery.Unicode.Lowercase

/-! The pages of the manual that comes with the command. -/

namespace ContextualQuery.Manual

/-- Lines of text. -/
def page (lines : List String) : String := String.join (lines.map (· ++ "\n"))

/-- A text filled up with spaces to a width. -/
def padded (width : Nat) (s : String) : String :=
  s ++ String.ofList (List.replicate (width - s.length) ' ')

/-- The topics of the manual. -/
inductive Topic where | queries | relations | prefixes | compilation | diagnostics
  deriving DecidableEq

/-- The topic with a name. Most have several, and case does not count. -/
def Topic.ofName? (name : String) : Option Topic :=
  let name := Unicode.lowercase name
  if ["syntax", "grammar"].contains name then some .queries
  else if ["relations", "relation", "modifiers"].contains name then some .relations
  else if ["prefixes", "prefix", "context-sets"].contains name then some .prefixes
  else if ["compilation", "es", "backend"].contains name then some .compilation
  else if ["diagnostics", "errors"].contains name then some .diagnostics
  else none

/-- What the manual is about. -/
def overview : String := page [
  "CQL DOCUMENTATION",
  "",
  "CQL (Contextual Query Language) is the query language of the SRU search",
  "protocol. A query is a set of search clauses joined by booleans.",
  "",
  "DOCUMENTATION TOPICS",
  "",
  "  syntax            Clauses, booleans, parentheses, sorting",
  "  relations         Comparison and word relations, modifiers",
  "  prefixes          Context sets and prefix declarations",
  "  compilation       How queries are translated for the search backend",
  "  diagnostics       Numbered errors raised for bad or unsupported queries",
  "",
  "QUICK REFERENCE",
  "",
  "  cat                           Bare term, searched in the default fields",
  "  dc.title = \"fish frog\"        Index, relation, term",
  "  title any \"fish frog\"         Any of the words",
  "  year >= 1999                  Range",
  "  a and (b or c) not d          Booleans, left to right",
  "  >dc=\"info:srw/...\" dc.title=x Prefix declaration"]

/-- How queries are written. -/
def queries : String := page [
  "SYNTAX - Clauses and Booleans",
  "",
  "SEARCH CLAUSE",
  "  index relation term",
  "    dc.title = fish",
  "    title any \"fish frog\"",
  "",
  "  A bare term is searched in the server's default fields:",
  "    fish          same as   cql.serverchoice = fish",
  "",
  "BOOLEANS",
  "  and, or, not, prox (case-insensitive), evaluated left to right.",
  "  Parentheses group:",
  "    (title = spam or subtitle = hamm) and eggs",
  "",
  "QUOTES",
  "  Terms with spaces or special characters are double-quoted.",
  "  Inside quotes \\\" is a literal quote. Outside of quotes only",
  "  \\? \\* \\^ and \\\\ are valid escapes.",
  "",
  "SORTING",
  "  query sortBy index[/modifier] ...",
  "  Sorting is parsed but rejected when the query is compiled."]

/-- Which relations and modifiers there are. -/
def relations : String := page [
  "RELATIONS",
  "",
  "  =    Match                      title = fish",
  "  <>   Does not match             title <> fish",
  "  >    Greater than               year > 1999",
  "  >=   Greater than or equal      year >= 1999",
  "  <    Less than                  year < 2000",
  "  <=   Less than or equal         year <= 2000",
  "  all  Every word must match      title all \"fish frog\"",
  "  any  Some word must match       title any \"fish frog\"",
  "",
  "  Other relations (exact, adj, within, ...) parse but do not compile.",
  "",
  "MODIFIERS",
  "  /name or /name=value after a relation or boolean:",
  "    title any/cql.stem/rel.algorithm=okapi fish",
  "  Modifiers parse but do not compile."]

/-- How context sets are named. -/
def prefixes : String := page [
  "PREFIXES",
  "",
  "  >name=\"identifier\" query",
  "    Binds name to a context set for the query that follows.",
  "  >\"identifier\" query",
  "    Sets the context set for unprefixed indexes.",
  "",
  "  Built in:",
  "    cql   info:srw/cql-context-set/1/cql-v1.1",
  "    dc    info:srw/cql-context-set/1/dc-v1.1",
  "    srw   http://www.loc.gov/zing/cql/srw-indexes/v1.0/",
  "",
  "  A declaration applies to its subquery only; inner declarations win."]

/-- What queries are compiled to. -/
def compilation : String := page [
  "COMPILATION",
  "",
  "  title = spam               title:spam",
  "  spam                       spam",
  "  year > 1999                year:>1999",
  "  ind <> 6                   ind:-\"6\"",
  "  title all \"spam hamm\"      (title:spam AND title:hamm)",
  "  title any \"spam hamm\"      (title:spam OR title:hamm)",
  "  a and b                    (a AND b)",
  "  a or b                     (a OR b)",
  "  a not b                    NOT(a AND b)",
  "",
  "  Indexes in the dc context set are looked up in the dc mapping, and the",
  "  result in the backend mapping. Unknown indexes are used as written.",
  "",
  "  cql.resultSetId = id  names a stored result set and is reported",
  "  separately so it can be served from cache."]

/-- Number, identifier and message of a diagnostic. -/
def diagnosticLine (code : DiagnosticCode) : String :=
  "  " ++ padded 4 (toString code.number) ++ padded 28 code.uri ++ code.message

/-- The diagnostics that queries are refused with. -/
def diagnostics : String := page (["DIAGNOSTICS", ""] ++ DiagnosticCode.all.map diagnosticLine)

/-- The page on a topic. -/
def Topic.page : Topic → String
  | .queries => Manual.queries
  | .relations => Manual.relations
  | .prefixes => Manual.prefixes
  | .compilation => Manual.compilation
  | .diagnostics => Manual.diagnostics

end ContextualQuery.Manual
