import ContextualQuery.Lexemes
import ContextualQuery.Query.Script

/-! Reading lexemes one after the other.

    A reading step sees the current token and the one behind it, may drop the current one, and may
    fail. What it has dropped stays dropped when it fails. -/

namespace ContextualQuery

/-- States in which lexemes are still to be read. -/
class Unread (σ : Type) where
  lexemes : σ → Lexemes
  /-- The same state with other lexemes to be read. -/
  replace : σ → Lexemes → σ

namespace Unread

variable {σ α : Type} [Unread σ]

/-- Drops the current token. Two tokens are always in sight, so a quote that is never closed is met
    as soon as only two tokens are left before it; it is reported once. -/
def advance : EStateM Fault σ Unit := do
  let s ← get
  match lexemes s with
  | { tokens := _ :: second :: third :: rest, unterminated } =>
    set (replace s { tokens := second :: third :: rest, unterminated })
  | { tokens, unterminated := some text } =>
    set (replace s { tokens })
    throw (.unterminated text)
  | { tokens, unterminated := none } => set (replace s { tokens := tokens.tail })

/-- Whether a condition holds of the current token. -/
def currentIs (p : Token → Bool) : EStateM Fault σ Bool :=
  return (lexemes (← get)).current.any p

/-- Does `step` as often as the current token is as asked, and `count` times at the most. -/
def loop (p : Token → Bool) (step : α → EStateM Fault σ α) : Nat → α → EStateM Fault σ α
  | 0, a => pure a
  | count + 1, a => do if ← currentIs p then loop p step count (← step a) else pure a

/-- Every step of a loop drops a token, so the number of tokens left bounds the steps. -/
instance : Script.Steps (EStateM Fault σ) where
  current := return (lexemes (← get)).current
  following := return (lexemes (← get)).following
  advance := advance
  refuse fault := throw fault
  foldWhile p step init := do loop p step (lexemes (← get)).tokens.length init

end Unread

/-- What is still to be read, and how many nodes have been created. -/
structure Reading.State where
  lexemes : Lexemes
  created : Nat := 0

instance : Unread Reading.State where
  lexemes := Reading.State.lexemes
  replace s lexemes := { s with lexemes }

/-- A step of reading. -/
abbrev Reading := EStateM Fault Reading.State

namespace Reading

variable {α : Type}

/-- What reading starts with. Two tokens come in sight, or a quote that is never closed. -/
def start (lexemes : Lexemes) : Except Fault State :=
  match lexemes with
  | { tokens := _ :: _ :: _, .. } => .ok { lexemes }
  | { unterminated := none, .. } => .ok { lexemes }
  | { unterminated := some text, .. } => .error (.unterminated text)

/-- Whatever reading starts with is all still to be read. -/
theorem eq_of_start {l : Lexemes} {s : State} (started : start l = .ok s) : s = { lexemes := l } := by
  unfold start at started
  split at started <;> cases started <;> rfl

/-! ### The script of reading, step by step -/

abbrev current : Reading (Option Token) := Script.Steps.current

abbrev following : Reading (Option Token) := Script.Steps.following

abbrev advance : Reading Unit := Script.Steps.advance

abbrev refuse (fault : Fault) : Reading α := Script.Steps.refuse fault

abbrev foldWhile (p : Token → Bool) (step : α → Reading α) (init : α) : Reading α :=
  Script.Steps.foldWhile p step init

abbrev currentIs (p : Token → Bool) : Reading Bool := Script.currentIs p

abbrev many (p : Token → Bool) (item : Reading α) : Reading (List α) := Script.many p item

abbrev ofExcept (r : Except Fault α) : Reading α := Script.ofExcept r

variable (rules : Rules)

abbrev name : Reading QualifiedName := Script.name rules

abbrev modifierName : Reading QualifiedName := Script.modifierName

abbrev modifierValue : Reading String := Script.modifierValue

abbrev modifier : Reading Modifier := Script.modifier

abbrev modifiers : Reading (List Modifier) := Script.modifiers

abbrev relation : Reading Relation := Script.relation

abbrev boolean : Reading Boolean := Script.boolean

abbrev sortKey : Reading Index := Script.sortKey rules

abbrev sortKeys : Reading (List Index) := Script.sortKeys rules

abbrev term : Reading Term := Script.term rules

abbrev prefixName : Reading String := Script.prefixName

abbrev identifierSegment : Reading String := Script.identifierSegment

abbrev identifier : Reading String := Script.identifier rules

end Reading

end ContextualQuery
