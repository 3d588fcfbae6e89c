import ContextualQuery.PrefixMap
import ContextualQuery.WordChars

/-! The rules by which a query text is read: how strict to be, and what to assume. -/

namespace ContextualQuery

/-- Rules for reading. The default accepts all that has a meaning. -/
structure Rules where
  rejectEmptyTerm : Bool := false
  rejectQuotedName : Bool := false
  rejectDuplicatePrefix : Bool := false
  /-- The punctuation that bare words hold. -/
  wordChars : String := defaultWordChars
  /-- What short names mean that neither the query declares nor the language reserves. -/
  defaultPrefixes : PrefixMap := .empty
  /-- How deep subqueries may nest, and how many levels the tree of a query may have. -/
  maxDepth : Nat := 256
  deriving DecidableEq

instance : Inhabited Rules := ⟨{}⟩

/-- The rules that reject whatever a rule can reject. -/
def Rules.strict : Rules :=
  { rejectEmptyTerm := true, rejectQuotedName := true, rejectDuplicatePrefix := true }

end ContextualQuery
