/-! Numbered diagnostics, by which a search service says why it refuses a query. -/

namespace ContextualQuery

/-- The entries of the diagnostics catalog that a query can be refused with. -/
inductive DiagnosticCode where
  | querySyntax
  | quotes
  | contextSet
  | relation
  | modifiers
  | specialCharacter
  | escape
  | emptyTerm
  | anchor
  | boolean
  | prefixConflict
  | sorting
  deriving DecidableEq

namespace DiagnosticCode

/-- All codes in ascending order of their numbers. -/
def all : List DiagnosticCode :=
  [.querySyntax, .quotes, .contextSet, .relation, .modifiers, .specialCharacter, .escape,
    .emptyTerm, .anchor, .boolean, .prefixConflict, .sorting]

/-- The number of a code in the catalog. -/
def number : DiagnosticCode → Nat
  | .querySyntax => 10
  | .quotes => 14
  | .contextSet => 15
  | .relation => 19
  | .modifiers => 21
  | .specialCharacter => 25
  | .escape => 26
  | .emptyTerm => 27
  | .anchor => 32
  | .boolean => 37
  | .prefixConflict => 45
  | .sorting => 80

/-- The code with a number. -/
def ofNumber? (n : Nat) : Option DiagnosticCode := all.find? (·.number == n)

/-- The message that the catalog gives a code. -/
def message : DiagnosticCode → String
  | .querySyntax => "Query syntax error"
  | .quotes => "Invalid or unsupported use of quotes"
  | .contextSet => "Unsupported context set"
  | .relation => "Unsupported relation"
  | .modifiers => "Unsupported combination of relation modifers"
  | .specialCharacter => "Special characters not quoted in term"
  | .escape => "Non special character escaped in term"
  | .emptyTerm => "Empty term unsupported"
  | .anchor => "Anchoring character in unsupported position"
  | .boolean => "Unsupported boolean operator"
  | .prefixConflict => "Prefix assigned to multiple identifiers"
  | .sorting => "Sort not supported"

/-- The identifier of a code. -/
def uri (c : DiagnosticCode) : String := "info:srw/diagnostic/1/" ++ toString c.number

end DiagnosticCode

/-- A refusal: why, with which details, and of which query. -/
structure Diagnostic where
  code : DiagnosticCode
  details : String
  query : String
  deriving DecidableEq

namespace Diagnostic

/-- Whether two diagnostics report the same. The query they come from does not count. -/
def sameReport (d e : Diagnostic) : Bool := d.code == e.code && d.details == e.details

/-- A diagnostic in one line. -/
def line (d : Diagnostic) : String :=
  d.code.uri ++ " [" ++ d.code.message ++ "]: " ++ d.details

end Diagnostic

end ContextualQuery
