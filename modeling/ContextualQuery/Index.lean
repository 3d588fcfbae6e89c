import ContextualQuery.QualifiedName
import ContextualQuery.Token

/-! Indexes, which say where to search, and the modifiers that refine indexes, relations and
    booleans. -/

namespace ContextualQuery

/-- A refinement `/name` or `/name=value`. The value is empty where no comparison is written. -/
structure Modifier where
  name : QualifiedName
  refinements : List Modifier := []
  comparison : Option Comparator := none
  value : String := ""

mutual

/-- How a modifier is written. -/
def Modifier.text : Modifier → String
  | ⟨name, refinements, comparison, value⟩ =>
    "/" ++ name.text ++ Modifier.texts refinements ++
      match comparison with
      | some c => c.text ++ value
      | none => ""

/-- How modifiers are written, one behind the other. -/
def Modifier.texts : List Modifier → String
  | [] => ""
  | m :: rest => m.text ++ Modifier.texts rest

end

/-- A field to search in or to sort by. -/
structure Index where
  name : QualifiedName
  modifiers : List Modifier := []

/-- How an index is written. -/
def Index.text (i : Index) : String := i.name.text ++ Modifier.texts i.modifiers

end ContextualQuery
