import ContextualQuery.Index

/-! Booleans, which join two queries. -/

namespace ContextualQuery

/-- The four words that join queries. -/
inductive Connective where | and | or | not | prox
  deriving DecidableEq

namespace Connective

/-- How a connective is written. -/
def text : Connective → String
  | .and => "and"
  | .or => "or"
  | .not => "not"
  | .prox => "prox"

/-- The connective that a word is, in any ASCII case. -/
def ofWord? (word : String) : Option Connective :=
  [.and, .or, .not, .prox].find? fun c : Connective => c.text == Text.fold word

end Connective

/-- A connective and its modifiers. -/
structure Boolean where
  connective : Connective
  modifiers : List Modifier := []

/-- How a boolean is written. -/
def Boolean.text (b : Boolean) : String := b.connective.text ++ Modifier.texts b.modifiers

/-- Whether a token is a word that joins queries. -/
def Token.isBoolean : Token → Bool
  | .word s => (Connective.ofWord? s).isSome
  | _ => false

end ContextualQuery
