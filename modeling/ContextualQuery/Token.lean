import ContextualQuery.Text.Fold

/-! The tokens of a query text.

    A token carries the text it was written with. The end of a query is no token: where a token
    may be missing, `Option Token` says so. -/

namespace ContextualQuery

/-- The six comparisons. -/
inductive Comparator where | eq | gt | ge | lt | le | ne
  deriving DecidableEq

/-- How a comparison is written. -/
def Comparator.text : Comparator → String
  | .eq => "="
  | .gt => ">"
  | .ge => ">="
  | .lt => "<"
  | .le => "<="
  | .ne => "<>"

/-- Whether a comparison asks for an order rather than for equality. -/
def Comparator.isOrdering : Comparator → Bool
  | .eq | .ne => false
  | .gt | .ge | .lt | .le => true

/-- The smallest units of a query. A quoted text keeps its quotes and its escapes; a symbol is a
    character that no other token can start with. -/
inductive Token where
  | word (text : String)
  | quoted (text : String)
  | openParen
  | closeParen
  | slash
  | comparison (comparator : Comparator)
  | symbol (char : Char)
  deriving DecidableEq

namespace Token

/-- The text a token was written with. -/
def text : Token → String
  | .word s | .quoted s => s
  | .openParen => "("
  | .closeParen => ")"
  | .slash => "/"
  | .comparison c => c.text
  | .symbol c => c.toString

/-- Whether a token is a comparison. -/
def isComparison : Token → Bool
  | .comparison _ => true
  | _ => false

/-- Whether a token may name something or be searched for: a word or a quoted text. -/
def isText : Token → Bool
  | .word _ | .quoted _ => true
  | _ => false

/-- Whether a token is the keyword, in any ASCII case. -/
def isWord (keyword : String) : Token → Bool
  | .word s => Text.sameFold s keyword
  | _ => false

end Token

end ContextualQuery
