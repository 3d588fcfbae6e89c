/-! Data to be exchanged: the values of the JSON format, as far as this library writes them. -/

namespace ContextualQuery

/-- A value. Numbers are natural; the members of an object keep their order. -/
inductive Json where
  | null
  | bool (value : Bool)
  | number (value : Nat)
  | string (value : String)
  | array (items : List Json)
  | object (members : List (String × Json))
  deriving BEq

namespace Json

/-- A string, or `null` where there is none. -/
def ofOption (s : Option String) : Json := s.elim .null .string

/-- An object of strings. -/
def ofPairs (pairs : List (String × String)) : Json :=
  .object (pairs.map fun p => (p.1, .string p.2))

end Json

end ContextualQuery
