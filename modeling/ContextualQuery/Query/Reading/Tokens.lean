import ContextualQuery.Boolean
import ContextualQuery.Clause
import ContextualQuery.Query.Fault
import ContextualQuery.Rules

/-! What single tokens are read as: names, terms, and the words that end a clause. -/

namespace ContextualQuery.Reading

open Unicode (lowercase)

/-! ### Names -/

/-- Splits a name at its dot. Both halves are in lower case then; a name without a dot stays as it
    is written. -/
def splitName (name : String) : Except Fault QualifiedName :=
  match name.toList.splitOnP (· == '.') with
  | [set, base] =>
    if set.isEmpty then .error (.emptySet name)
    else .ok ⟨lowercase (String.ofList set), lowercase (String.ofList base)⟩
  | [_] => .ok ⟨"", name⟩
  | _ => .error (.severalDots name)

/-! ### Terms -/

/-- What a quoted term searches for: the text between the quotes, escaped quotes being quotes. -/
def unescapeQuotes : List Char → List Char
  | '\\' :: '"' :: rest => '"' :: unescapeQuotes rest
  | c :: rest => c :: unescapeQuotes rest
  | [] => []

/-- Whether each backslash escapes one of the characters that have a meaning in terms. -/
def escapesAreSpecial : List Char → Bool
  | '\\' :: c :: rest => ['?', '\\', '*', '^'].contains c && escapesAreSpecial rest
  | ['\\'] => false
  | _ :: rest => escapesAreSpecial rest
  | [] => true

/-- The term written as `raw`, whose text without quotes is `inner`. -/
def checkTerm (rules : Rules) (raw inner : String) : Except Fault Term :=
  if raw.toList.all (· == '^') then .error (.onlyAnchors raw)
  else if inner.isEmpty && rules.rejectEmptyTerm then .error (.emptyTerm raw)
  else if escapesAreSpecial inner.toList then .ok ⟨raw⟩
  else .error (.badEscape inner)

/-- The term that a token is. -/
def termOf (rules : Rules) : Option Token → Except Fault Term
  | some (.comparison c) => .error (.bareOperator (.comparison c))
  | some .slash => .error (.bareOperator .slash)
  | some (.word s) => checkTerm rules s s
  | some (.quoted s) =>
    checkTerm rules s (String.ofList (unescapeQuotes (Text.unquote s).toList))
  | some (.symbol c) => checkTerm rules c.toString c.toString
  | found => .error (.noTerm found)

/-! ### Ends of clauses -/

/-- The word in front of sort keys. -/
def sortWord : String := "sortby"

/-- Whether a term before this token stands alone. -/
def endsTerm : Option Token → Bool
  | some t => t.isBoolean || t.isWord sortWord || t == .closeParen
  | none => true

end ContextualQuery.Reading
