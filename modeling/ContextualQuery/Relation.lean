import ContextualQuery.ContextSet
import ContextualQuery.Index

/-! Relations between an index and a term: comparisons, and relations that are named by a word. -/

namespace ContextualQuery

/-- What a relation asks for. A comparison is never taken for a word: `all` and `any` are the words
    of the language's own context set, every other word is kept by its name. -/
inductive RelationKind where
  | comparison (comparator : Comparator)
  | all
  | any
  | named (name : String)
  deriving DecidableEq

/-- A relation, the short name of the context set it belongs to, and its modifiers. -/
structure Relation where
  set : String := ContextSet.cqlName
  kind : RelationKind
  modifiers : List Modifier := []

namespace Relation

/-- The kind of the relation that a word names in a set. -/
def kindOf (set word : String) : RelationKind :=
  if set = ContextSet.cqlName ∧ word = "all" then .all
  else if set = ContextSet.cqlName ∧ word = "any" then .any
  else .named word

/-- The relation that a word names. What stands before the first dot is the set; without a dot it
    is the language's own. -/
def ofWord (word : String) (modifiers : List Modifier) : Relation :=
  match word.toList.span (· ≠ '.') with
  | (set, _ :: base) =>
    { set := String.ofList set
      kind := kindOf (String.ofList set) (String.ofList base)
      modifiers }
  | (_, []) => { kind := kindOf ContextSet.cqlName word, modifiers }

/-- The relation without its set and modifiers. -/
def value (r : Relation) : String :=
  match r.kind with
  | .comparison c => c.text
  | .all => "all"
  | .any => "any"
  | .named name => name

/-- How a relation is written. The language's own set is left out. -/
def text (r : Relation) : String :=
  let head :=
    match r.kind with
    | .comparison c => c.text
    | _ => if r.set = ContextSet.cqlName then r.value else r.set ++ "." ++ r.value
  head ++ Modifier.texts r.modifiers

end Relation

end ContextualQuery
