import ContextualQuery.Relation

/-! Search clauses: an index, a relation and the term that is searched for. -/

namespace ContextualQuery

/-- What is searched for, as it was written: a quoted term keeps its quotes and its escapes. -/
structure Term where
  text : String
  deriving DecidableEq

/-- Whether a term stands between quotes. -/
def Term.isQuoted (t : Term) : Bool := Text.isQuoted t.text

/-- A term without its quotes. Escapes stay. -/
def Term.unquoted (t : Term) : String := Text.unquote t.text

/-- The smallest query. -/
structure Clause where
  index : Index
  relation : Relation
  term : Term

/-- The name of the index that leaves the choice of fields to the server. -/
def serverChoice : String := "serverchoice"

/-- The clause that a term alone stands for. -/
def Clause.ofTerm (term : Term) : Clause where
  index := { name := ⟨ContextSet.cqlName, serverChoice⟩ }
  relation := { kind := .comparison .eq }
  term

/-- How a clause is written. -/
def Clause.text (c : Clause) : String :=
  c.index.text ++ " " ++ c.relation.text ++ " " ++ c.term.text

end ContextualQuery
