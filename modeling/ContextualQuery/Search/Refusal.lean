import ContextualQuery.Diagnostic

/-! Why a query cannot be asked of a search backend. -/

namespace ContextualQuery

/-- What a backend cannot do, with its text in the query. -/
inductive Refusal where
  | sorting (keys : String)
  | proximity (connective : String)
  | modified (part : String)
  | relation (relation : String)
  deriving DecidableEq

namespace Refusal

/-- The code that a refusal is reported with. -/
def code : Refusal → DiagnosticCode
  | .sorting _ => .sorting
  | .proximity _ => .boolean
  | .modified _ => .modifiers
  | .relation _ => .relation

/-- The details that a refusal is reported with. -/
def details : Refusal → String
  | .sorting text | .proximity text | .modified text | .relation text => text

/-- The report of a refusal of a query. -/
def diagnostic (r : Refusal) (source : String) : Diagnostic :=
  { code := r.code, details := r.details, query := source }

end Refusal

end ContextualQuery
