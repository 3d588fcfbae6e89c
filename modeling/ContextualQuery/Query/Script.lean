import ContextualQuery.Query.Reading.Tokens

/-! How a query is read.

        query     :=  declaration* chain
        chain     :=  subquery (boolean subquery)* (sortby key+)?
        subquery  :=  ( query )  |  declaration+ chain  |  clause
        clause    :=  index relation term  |  term

    Booleans associate to the left. One token decides between the two forms of a clause: a term
    stands alone when a boolean, `sortby`, a closing parenthesis or the end follows it.

    The text of the reading stands here once. Left open is how its steps are carried out (`Steps`)
    and what is built of the parts that are read (`Builder`): a tree, a tree with notes on it, or nodes
    in an arena. -/

namespace ContextualQuery

open Reading (splitName termOf sortWord endsTerm)
open Unicode (lowercase)

/-- A way to carry out the steps that reading is made of. -/
class Script.Steps (M : Type → Type) where
  /-- The current token. -/
  current : M (Option Token)
  /-- The token behind the current one. -/
  following : M (Option Token)
  /-- Drops the current token. -/
  advance : M Unit
  /-- Gives the text up. -/
  refuse {α : Type} (fault : Fault) : M α
  /-- Does a step over and over while the current token is as asked. -/
  foldWhile {α : Type} (p : Token → Bool) (step : α → M α) (init : α) : M α

/-- A way to build queries from the parts that are read. What is built is handed on as a value of
    `N`, and groups of declarations as values of `G`. -/
structure Script.Builder (M : Type → Type) (N G : Type) where
  /-- A group without declarations. -/
  none : G
  /-- Adds the declaration of a short name to those in front of it. -/
  add : G → String → String → G
  /-- What the declarations of a group amount to. -/
  declared : G → PrefixMap
  /-- A new leaf, inside the given groups. -/
  clause : List G → Clause → M N
  /-- A new node above two others. -/
  triple : N → Boolean → N → M N
  /-- The levels of what has been built. -/
  height : N → M Nat
  sortBy : N → List Index → M N
  /-- Attaches a group of declarations to what stands behind it. -/
  declare : N → G → M N
  /-- The names that the given open groups declare, innermost first, unless no more scopes may be
      opened. -/
  outer : List G → M (List (List String))
  /-- Reads inside the scope of a group. -/
  within : G → M N → M N

namespace Script

open Steps

variable {M : Type → Type} [Monad M] [Steps M] {N G α : Type}

/-- Whether a condition holds of the current token. -/
def currentIs (p : Token → Bool) : M Bool := return (← current).any p

/-- The items read while the current token is as asked. -/
def many (p : Token → Bool) (item : M α) : M (List α) := do
  let items ← foldWhile p (fun items => return (← item) :: items) []
  return items.reverse

/-- A result that is an outcome of reading. -/
def ofExcept : Except Fault α → M α
  | .ok a => pure a
  | .error f => refuse f

variable (rules : Rules)

/-- The name that the current token is. The token stays. -/
def name : M QualifiedName := do
  match ← current with
  | some (.word s) => ofExcept (splitName s)
  | some (.quoted s) =>
    if rules.rejectQuotedName then refuse (.quotedName s)
    ofExcept (splitName (Text.unquote s))
  | found => refuse (.noIndex found)

/-! ### Modifiers -/

/-- The name of a modifier, behind the slash. The token stays. -/
def modifierName : M QualifiedName := do
  match ← current with
  | some (.word s) => ofExcept (splitName (lowercase s))
  | none | some .slash => refuse .emptyModifier
  | found => refuse (.noModifierName found)

/-- The value of a modifier, behind the comparison. -/
def modifierValue : M String := do
  match ← current with
  | some (.word s) | some (.quoted s) =>
    advance
    return s
  | found => refuse (.noModifierValue found)

/-- A modifier. A comparison behind its name always belongs to it. -/
def modifier : M Modifier := do
  advance
  let name ← modifierName
  advance
  match ← current with
  | some (.comparison c) =>
    advance
    return { name, comparison := some c, value := ← modifierValue }
  | _ => return { name }

/-- The modifiers that stand here. -/
def modifiers : M (List Modifier) := many (· == .slash) modifier

/-! ### Relations, booleans, sort keys, terms -/

/-- A relation with its modifiers. -/
def relation : M Relation := do
  match ← current with
  | some (.comparison c) =>
    advance
    return { kind := .comparison c, modifiers := ← modifiers }
  | some (.word s) =>
    let word := lowercase s
    let _ ← ofExcept (splitName word)
    advance
    return .ofWord word (← modifiers)
  | found => refuse (.noRelation found)

/-- A boolean with its modifiers. -/
def boolean : M Boolean := do
  match ← current with
  | some (.word s) =>
    match Connective.ofWord? s with
    | some connective =>
      advance
      return { connective, modifiers := ← modifiers }
    | none => refuse (.unexpected (some (.word s)))
  | found => refuse (.unexpected found)

/-- A sort key with its modifiers. -/
def sortKey : M Index := do
  let name ← name rules
  advance
  return { name, modifiers := ← modifiers }

/-- One or more sort keys: every text that stands here is one. -/
def sortKeys : M (List Index) := do
  if ← currentIs Token.isText then many Token.isText (sortKey rules) else refuse .noSortKeys

/-- A term. -/
def term : M Term := do
  let term ← ofExcept (termOf rules (← current))
  advance
  return term

/-! ### Declarations of short names -/

/-- The short name of a declaration; the empty one where no `=` follows. -/
def prefixName : M String := do
  if (← following) == some (.comparison .eq) then
    match ← current with
    | some (.word s) =>
      advance
      advance
      return lowercase s
    | found => refuse (.noPrefixName found)
  else return ""

/-- A slash inside an identifier, with the word behind it if there is one. -/
def identifierSegment : M String := do
  advance
  match ← current with
  | some (.word s) =>
    advance
    return "/" ++ s
  | _ => return "/"

/-- The identifier of a declaration: a quoted text, or a word with all the slashes and words that
    follow it. -/
def identifier : M String := do
  match ← current with
  | some (.quoted s) =>
    if rules.rejectQuotedName then refuse (.quotedName s)
    advance
    return Text.unquote s
  | some (.word s) =>
    advance
    return s ++ String.join (← many (· == .slash) identifierSegment)
  | found => refuse (.noIdentifier found)

variable (make : Builder M N G)

/-- A declaration, added to those in front of it. -/
def declaration (group : G) : M G := do
  advance
  let name ← prefixName
  let identifier ← identifier rules
  if rules.rejectDuplicatePrefix &&
      ((make.declared group).contains name || (ContextSet.reserved? name).isSome) then
    refuse (.duplicatePrefix name)
  return make.add group name identifier

/-- The group of declarations that stand here. -/
def declarations : M G := foldWhile (· == .comparison .gt) (declaration rules make) make.none

/-! ### Trees -/

/-- A clause, inside the groups `frames`. -/
def clause (frames : List G) : M N := do
  let next ← following
  if endsTerm next then
    if (← current).isNone then refuse (.incompleteClause none)
    make.clause frames (.ofTerm (← term rules))
  else if next == some .openParen then refuse (.incompleteClause (← current))
  else
    let name ← name rules
    advance
    let relation ← relation
    if (← current).isNone then refuse .endBeforeTerm
    let term ← term rules
    make.clause frames { index := { name }, relation, term }

/-- A boolean and its right operand, behind the left one. -/
def join (operand : M N) (left : N) : M N := do
  let boolean ← boolean
  let right ← operand
  let node ← make.triple left boolean right
  if (← make.height node) > rules.maxDepth then refuse .tooDeep
  return node

/-- Operands joined by booleans, and the keys that the whole is sorted by. -/
def chain (operand : M N) : M N := do
  let node ← foldWhile Token.isBoolean (join rules make operand) (← operand)
  if ← currentIs (Token.isWord sortWord) then
    advance
    make.sortBy node (← sortKeys rules)
  else return node

/-- A subquery, inside the groups `frames`. Whatever opens a scope of its own is read by `enter`,
    which is given the group of declarations in front of it. -/
def subquery (frames : List G) (enter : G → M N) : M N := do
  if ← currentIs (· == .openParen) then
    advance
    let node ← enter (← declarations rules make)
    unless ← currentIs (· == .closeParen) do refuse (.unexpected (← current))
    advance
    return node
  else
    let group ← declarations rules make
    if (make.declared group).isEmpty then clause rules make frames else enter group

/-- What a group of declarations stands in front of, `frames` being the groups around it, innermost
    first. At most `depth` scopes may be opened. -/
def inScope : Nat → List G → G → M N
  | 0, _, _ => refuse .tooDeep
  | depth + 1, frames, group => do
    let names ← make.outer frames
    if rules.rejectDuplicatePrefix then
      if let some name := (make.declared group).names.find? fun name => names.any (·.contains name) then
        refuse (.duplicatePrefix name)
    let inner := group :: frames
    let node ← make.within group (chain rules make (subquery rules make inner (inScope depth inner)))
    make.declare node group

/-- A whole query, of at most `depth` scopes. Nothing may be left behind it. -/
def whole (depth : Nat) : M N := do
  let root ← inScope rules make depth [] (← declarations rules make)
  if let some found ← current then refuse (.leftover found)
  return root

end Script

end ContextualQuery
