import ContextualQuery.Text.Quotes
import ContextualQuery.WordChars

/-! Names with the short name of the context set they belong to: `dc.title`, `title`. -/

namespace ContextualQuery

/-- A name in a context set. The short name of the set is empty where none is written. -/
structure QualifiedName where
  set : String
  base : String
  deriving DecidableEq

namespace QualifiedName

/-- Whether the set is written. -/
def hasSet (n : QualifiedName) : Bool := !n.set.isEmpty

/-- Set and name with a dot in between; the name alone where no set is written. -/
def full (n : QualifiedName) : String := if n.hasSet then n.set ++ "." ++ n.base else n.base

/-- How the name is written in a query: between quotes where it would not be read as one word. -/
def text (n : QualifiedName) : String := if isBareWord n.full then n.full else Text.quote n.full

end QualifiedName

end ContextualQuery
