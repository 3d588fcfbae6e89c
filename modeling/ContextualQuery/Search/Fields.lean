import ContextualQuery.Clause
import ContextualQuery.Dictionary
import ContextualQuery.Query.Scope

/-! The fields of a search backend that indexes stand for. -/

namespace ContextualQuery

/-- What is known about fields: the names that Dublin Core elements have inside the service, and the
    names that those have in the backend. -/
structure FieldNames where
  elements : Dictionary := .empty
  backend : Dictionary := .empty
  deriving DecidableEq

/-- The field that stands for the choice of the server, however its name is written. -/
def serverChoiceField : String := "cql.serverchoice"

/-- The backend field of an index, given the context set that it belongs to. Where the choice is
    the server's there is none. -/
def FieldNames.fieldOf (names : FieldNames) (contextSet : Option String) (index : QualifiedName) :
    Option String :=
  if contextSet = some ContextSet.cql ∧ index.base = serverChoice then none
  else
    let inner :=
      if contextSet = some ContextSet.dublinCore then
        (names.elements.get? index.base).getD index.full
      else index.full
    let outer := (names.backend.get? inner).getD inner
    if Text.sameFold outer serverChoiceField then none else some outer

end ContextualQuery
