import ContextualQuery.Query.Arena
import ContextualQuery.Query.Reading

/-! Reading a query into an arena.

    The script of reading, with one stack of open scopes and one counter that each scope changes when
    it is entered and sets back when it is left, be it with a node or with a fault. Nodes that a
    refused reading has stored stay stored. -/

namespace ContextualQuery

/-- What is still to be read, the nodes that have been stored, the names declared in front of each
    open scope, innermost first, and the number of open scopes. -/
structure Reader where
  lexemes : Lexemes
  arena : Arena := {}
  scopes : List (List String) := []
  depth : Nat := 0

instance : Unread Reader where
  lexemes := Reader.lexemes
  replace r lexemes := { r with lexemes }

/-- A step of reading into an arena. -/
abbrev Storing := EStateM Fault Reader

namespace Reader

variable {α : Type}

/-- Enters a scope and leaves it again, whatever happens inside. -/
def within (names : List String) (inner : Storing α) : Storing α := fun r =>
  let leave (r : Reader) : Reader := { r with scopes := r.scopes.tail, depth := r.depth - 1 }
  match inner { r with scopes := names :: r.scopes, depth := r.depth + 1 } with
  | .ok a r => .ok a (leave r)
  | .error f r => .error f (leave r)

/-- Changes a stored node, whose number is handed on. -/
def modify (id : Nat) (f : Slot → Slot) : Storing Nat :=
  modifyGet fun r => (id, { r with arena := r.arena.modify id f })

/-- Nodes in an arena, by their numbers. The counter says whether one more scope may be opened, and
    the stack which names the open ones declare. -/
def storing (rules : Rules) : Script.Builder Storing Nat PrefixMap where
  none := .empty
  add := .insert
  declared := id
  clause _ c := modifyGet fun r =>
    let (id, arena) := r.arena.clause c
    (id, { r with arena })
  triple left boolean right := modifyGet fun r =>
    let (id, arena) := r.arena.triple left boolean right
    (id, { r with arena })
  height id := return (← get).arena.height id
  sortBy id keys := modify id fun slot => { slot with sortKeys := keys }
  declare id group := modify id fun slot => { slot with prefixes := slot.prefixes.withDefaults group }
  outer _ := do
    let r ← get
    if r.depth ≥ rules.maxDepth then throw .tooDeep
    return r.scopes
  within group inner := within group.names inner

@[simp] theorem declared_storing (rules : Rules) (group : PrefixMap) :
    (storing rules).declared group = group := rfl

/-- A whole query, read from the lexemes of `source`. The arena is empty behind it. The counter
    lets no more scopes be opened than are counted here. -/
def query (rules : Rules) (source : String) : Storing StoredQuery := do
  let root ← Script.whole rules (storing rules) (rules.maxDepth + 1)
  let arena ← modifyGet fun r => (r.arena, { r with arena := {} })
  return { source, arena, root, defaults := rules.defaultPrefixes }

/-- Starts to read a text whose words hold the given punctuation. -/
def start (punctuation source : String) : Except Diagnostic Reader :=
  match Reading.start (.ofText punctuation source) with
  | .ok state => .ok { lexemes := state.lexemes }
  | .error fault => .error (fault.diagnostic source)

/-- Reads a query of `source` from what is left of it. -/
def read (rules : Rules) (source : String) (r : Reader) : Except Diagnostic StoredQuery × Reader :=
  match (query rules source).run r with
  | .ok query r => (.ok query, r)
  | .error fault r => (.error (fault.diagnostic source), r)

/-- What a number of readings leave. -/
def after (rules : Rules) (source : String) (r : Reader) : Nat → Reader
  | 0 => r
  | times + 1 => ((r.after rules source times).read rules source).2

end Reader

/-- The query that a text is, with its nodes in an arena. -/
def store (rules : Rules) (source : String) : Except Diagnostic StoredQuery := do
  let reader ← Reader.start rules.wordChars source
  (reader.read rules source).1

end ContextualQuery
