/-! Double quotes around a text. -/

namespace ContextualQuery.Text

/-- The text between a double quote at the start and another at the end, if both are there. -/
def betweenQuotes? : List Char → Option (List Char)
  | '"' :: rest => if rest.getLast? = some '"' then some rest.dropLast else none
  | _ => none

/-- Whether a text starts with a double quote and ends with another. -/
def isQuoted (s : String) : Bool := (betweenQuotes? s.toList).isSome

/-- A text without the double quotes around it; a text that is not quoted stays as it is. -/
def unquote (s : String) : String := ((betweenQuotes? s.toList).map String.ofList).getD s

/-- A text between double quotes. -/
def quote (s : String) : String := "\"" ++ s ++ "\""

end ContextualQuery.Text
