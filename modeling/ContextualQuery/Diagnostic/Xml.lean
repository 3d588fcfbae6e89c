import ContextualQuery.Diagnostic

/-! Diagnostics as the response document of a search service: no records, the diagnostic, and the
    query it was asked. -/

namespace ContextualQuery

/-- A character of running text in a document. The five characters with a meaning of their own are
    written as entities. -/
def xmlChar : Char → List Char
  | '<' => "&lt;".toList
  | '>' => "&gt;".toList
  | '&' => "&amp;".toList
  | '\'' => "&apos;".toList
  | '"' => "&quot;".toList
  | c => [c]

/-- Running text in a document. -/
def xmlText (s : String) : String := String.ofList (s.toList.flatMap xmlChar)

/-- The lines of the response that reports a diagnostic. Empty details are left out. -/
def Diagnostic.xmlLines (d : Diagnostic) : List String :=
  ["<?xml version=\"1.0\" encoding=\"UTF-8\"?>",
    "<searchRetrieveResponse xmlns=\"http://www.loc.gov/zing/srw/\"" ++
      " xmlns:diag=\"http://www.loc.gov/zing/srw/diagnostic/\">",
    "  <version>1.1</version>",
    "  <numberOfRecords>0</numberOfRecords>",
    "  <diagnostics>",
    "    <diag:diagnostic>",
    "      <diag:uri>" ++ d.code.uri ++ "</diag:uri>"] ++
  (if d.details.isEmpty then []
    else ["      <diag:details>" ++ xmlText d.details ++ "</diag:details>"]) ++
  ["      <diag:message>" ++ xmlText d.code.message ++ "</diag:message>",
    "    </diag:diagnostic>",
    "  </diagnostics>",
    "  <echoedSearchRetrieveRequest>",
    "    <version>1.1</version>",
    "    <query>" ++ xmlText d.query ++ "</query>",
    "  </echoedSearchRetrieveRequest>",
    "</searchRetrieveResponse>"]

/-- The response that reports a diagnostic. -/
def Diagnostic.xml (d : Diagnostic) : String := String.join (d.xmlLines.map (· ++ "\n"))

end ContextualQuery
