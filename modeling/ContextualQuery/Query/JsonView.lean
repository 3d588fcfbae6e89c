import ContextualQuery.Json
import ContextualQuery.Query

/-! The tree of a query as nested data. Members are listed in the order of their names, and what is
    empty is left out where a node or an index may do without it. -/

namespace ContextualQuery

/-- A modifier as data. -/
def Modifier.json (m : Modifier) : Json :=
  .object [
    ("comparison", .string (m.comparison.elim "" Comparator.text)),
    ("type", .string m.name.full),
    ("value", .string m.value)]

/-- Modifiers as data. -/
def modifiersJson (modifiers : List Modifier) : Json := .array (modifiers.map Modifier.json)

/-- A member that is left out where it says nothing. -/
def optionalMember (present : Bool) (name : String) (value : Json) : List (String × Json) :=
  if present then [(name, value)] else []

/-- An index as data. -/
def Index.json (i : Index) : Json :=
  .object (
    optionalMember (!i.modifiers.isEmpty) "modifiers" (modifiersJson i.modifiers) ++
    [("name", .string i.name.base), ("prefix", .string i.name.set)])

/-- A relation as data. -/
def Relation.json (r : Relation) : Json :=
  .object [
    ("modifiers", modifiersJson r.modifiers),
    ("prefix", .string r.set),
    ("value", .string r.value)]

/-- A boolean as data. -/
def Boolean.json (b : Boolean) : Json :=
  .object [("modifiers", modifiersJson b.modifiers), ("value", .string b.connective.text)]

/-- The declarations at a node as a member. -/
def NodeInfo.prefixesMember (info : NodeInfo) : List (String × Json) :=
  optionalMember (!info.prefixes.isEmpty) "prefixes" (.ofPairs info.prefixes.entries)

/-- The sort keys at a node as a member. -/
def NodeInfo.sortKeysMember (info : NodeInfo) : List (String × Json) :=
  optionalMember (!info.sortKeys.isEmpty) "sortKeys" (.array (info.sortKeys.map Index.json))

/-- A tree as data. -/
def Node.json : Node → Json
  | .clause info c => .object (
      [("index", c.index.json)] ++ info.prefixesMember ++ [("relation", c.relation.json)] ++
      info.sortKeysMember ++ [("term", .string c.term.text), ("type", .string "searchClause")])
  | .triple info left boolean right => .object (
      [("boolean", boolean.json), ("left", left.json)] ++ info.prefixesMember ++
      [("right", right.json)] ++ info.sortKeysMember ++ [("type", .string "triple")])

/-- The tree of a query as data. -/
def Query.json (q : Query) : Json := q.root.json

end ContextualQuery
