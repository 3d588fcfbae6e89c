import ContextualQuery.Json.Printer
import ContextualQuery.Query.Session
import ContextualQuery.Search.Compile

/-! What is logged about the reading and the compiling of queries. -/

namespace ContextualQuery

/-- An outcome worth a line in the log. -/
inductive Event where
  | parsed (query : String) (nodes : Nat)
  | rejected (reason : Diagnostic)
  | compiled (query : String) (search : String)
  | refused (reason : Diagnostic)

namespace Event

/-- What happened. -/
def message : Event → String
  | .parsed .. => "parsed CQL query"
  | .rejected _ => "CQL query rejected"
  | .compiled .. => "compiled CQL query"
  | .refused _ => "CQL query not compilable"

/-- The fields that report a diagnostic. -/
def reasonFields (d : Diagnostic) : List (String × Json) :=
  [("query", .string d.query), ("code", .string (toString d.code.number)),
    ("details", .string d.details)]

/-- What it happened to, field by field. -/
def fields : Event → List (String × Json)
  | .parsed query nodes => [("query", .string query), ("nodes", .number nodes)]
  | .compiled query search => [("query", .string query), ("compiled", .string search)]
  | .rejected reason | .refused reason => reasonFields reason

/-- An event in one line. -/
def line (e : Event) : String :=
  "DEBUG " ++ e.message ++ " " ++ (Json.object e.fields).compact ++ "\n"

/-- The event of a reading. -/
def ofParse : Except Diagnostic Query → Event
  | .ok q => .parsed q.source q.size
  | .error d => .rejected d

/-- The event of a compilation. -/
def ofCompile (q : Query) : Except Diagnostic String → Event
  | .ok search => .compiled q.source search
  | .error d => .refused d

/-- The events of reading a text and, if it is a query, of compiling it. -/
def ofRun (rules : Rules) (names : FieldNames) (source : String) : List Event :=
  let parsed := parse rules source
  ofParse parsed :: match parsed with
    | .ok q => [ofCompile q (q.compile names)]
    | .error _ => []

end Event

end ContextualQuery
