import ContextualQuery.Dictionary
import ContextualQuery.Unicode.Lowercase

/-! Declared short names of context sets.

    Short names are the same in any case and are kept in lower case; `get?_insert` says so. The empty
    name stands for the set of names that are written without one. -/

namespace ContextualQuery

open Unicode (lowercase)

/-- Short names and the identifiers they are bound to. -/
structure PrefixMap where
  bindings : Dictionary
  deriving DecidableEq

namespace PrefixMap

/-- The map without names. -/
def empty : PrefixMap := ⟨.empty⟩

instance : Inhabited PrefixMap := ⟨empty⟩

/-- Binds a name, in place of an earlier binding of it. -/
def insert (m : PrefixMap) (name identifier : String) : PrefixMap :=
  ⟨m.bindings.insert (lowercase name) identifier⟩

/-- What a name is bound to. -/
def get? (m : PrefixMap) (name : String) : Option String := m.bindings.get? (lowercase name)

/-- Whether a name is bound. -/
def contains (m : PrefixMap) (name : String) : Bool := m.bindings.contains (lowercase name)

/-- Binds a name unless it is bound already. -/
def insertNew (m : PrefixMap) (name identifier : String) : PrefixMap :=
  if m.contains name then m else m.insert name identifier

/-- Binds a name unless it is bound already, and says whether it did. -/
def tryInsert (m : PrefixMap) (name identifier : String) : Bool × PrefixMap :=
  if m.contains name then (false, m) else (true, m.insert name identifier)

/-- The names and their identifiers, in ascending order of names. -/
def entries (m : PrefixMap) : List (String × String) := m.bindings.entries

/-- The bound names in ascending order. -/
def names (m : PrefixMap) : List String := m.entries.map (·.1)

/-- The number of names. -/
def size (m : PrefixMap) : Nat := m.bindings.size

/-- Whether no name is bound. -/
def isEmpty (m : PrefixMap) : Bool := m.bindings.isEmpty

/-- Binds pair after pair: of two names that differ in case only the later counts. -/
def ofList (pairs : List (String × String)) : PrefixMap :=
  pairs.foldl (fun m p => m.insert p.1 p.2) empty

/-- Adds the bindings of `outer` whose names are not bound yet. -/
def withDefaults (m outer : PrefixMap) : PrefixMap :=
  outer.entries.foldl (fun m p => m.insertNew p.1 p.2) m

/-- Binding a name changes what that name is bound to in any case, and nothing else. -/
theorem get?_insert (m : PrefixMap) (name identifier n : String) :
    (m.insert name identifier).get? n =
      if lowercase n = lowercase name then some identifier else m.get? n :=
  m.bindings.get?_insert (lowercase name) identifier (lowercase n)

theorem tryInsert_eq (m : PrefixMap) (name identifier : String) :
    m.tryInsert name identifier = (!m.contains name, m.insertNew name identifier) := by
  rw [tryInsert, insertNew]
  cases m.contains name <;> rfl

end PrefixMap

end ContextualQuery
