import ContextualQuery.Diagnostic
import ContextualQuery.Token

/-! Why a text is no query. -/

namespace ContextualQuery

/-- The faults of a query text. What was found is `none` at the end of the text. -/
inductive Fault where
  /-- A quote is opened and never closed. -/
  | unterminated (text : String)
  /-- The subqueries or the levels of the tree exceed the limit. -/
  | tooDeep
  /-- The query is complete, and a token follows. -/
  | leftover (found : Token)
  /-- Another token than the one that has to follow. -/
  | unexpected (found : Option Token)
  /-- No term, and nothing that a clause could go on with. -/
  | incompleteClause (found : Option Token)
  | noPrefixName (found : Option Token)
  | noIdentifier (found : Option Token)
  | noIndex (found : Option Token)
  | noRelation (found : Option Token)
  | noModifierName (found : Option Token)
  | noModifierValue (found : Option Token)
  | noTerm (found : Option Token)
  | endBeforeTerm
  | emptyModifier
  | noSortKeys
  /-- A short name is declared twice, or it is reserved. -/
  | duplicatePrefix (name : String)
  /-- A name or an identifier stands between quotes. -/
  | quotedName (text : String)
  | severalDots (name : String)
  | emptySet (name : String)
  /-- A comparison or a slash stands where a term belongs. -/
  | bareOperator (found : Token)
  | onlyAnchors (term : String)
  | emptyTerm (term : String)
  | badEscape (term : String)
  deriving DecidableEq

namespace Fault

/-- The code that a fault is reported with. -/
def code : Fault → DiagnosticCode
  | .duplicatePrefix _ => .prefixConflict
  | .quotedName _ => .quotes
  | .severalDots _ | .emptySet _ => .contextSet
  | .bareOperator _ => .specialCharacter
  | .onlyAnchors _ => .anchor
  | .emptyTerm _ => .emptyTerm
  | .badEscape _ => .escape
  | _ => .querySyntax

/-- The text of what was found. -/
def textOf (found : Option Token) : String := found.elim "" Token.text

/-- The details that a fault is reported with. -/
def details : Fault → String
  | .unterminated text => text
  | .tooDeep => "Query nesting too deep"
  | .leftover found => "Unprocessed tokens remain: '" ++ found.text ++ "'"
  | .unexpected found => textOf found
  | .incompleteClause found => "Expected Boolean or Relation but got: " ++ textOf found
  | .noPrefixName found => "Expected prefix name but got: " ++ textOf found
  | .noIdentifier found => "Expected prefix identifier but got: " ++ textOf found
  | .noIndex found => "Expected Index but got: " ++ textOf found
  | .noRelation found => "Expected Relation but got: " ++ textOf found
  | .noModifierName found => "Expected modifier name but got: " ++ textOf found
  | .noModifierValue found => "Expected modifier value but got: " ++ textOf found
  | .noTerm found => "Expected Term but got: " ++ textOf found
  | .endBeforeTerm => "Expected Term, got end of query."
  | .emptyModifier => "Null modifier"
  | .noSortKeys => "Sort with no keys"
  | .duplicatePrefix name => "Duplicate prefix: " ++ name
  | .quotedName text => text
  | .severalDots name => "Multiple '.' characters: " ++ name
  | .emptySet name => "Null indexset: " ++ name
  | .bareOperator found => found.text
  | .onlyAnchors term => "Only anchoring character(s) in term: " ++ term
  | .emptyTerm term => term
  | .badEscape term => term

/-- The report of a fault in a text. -/
def diagnostic (f : Fault) (source : String) : Diagnostic :=
  { code := f.code, details := f.details, query := source }

end Fault

end ContextualQuery
