import ContextualQuery.Json
import ContextualQuery.Rules
import ContextualQuery.Search.Fields

/-! Settings: the rules by which queries are read and the fields that they are compiled to. -/

namespace ContextualQuery

/-- What turns a query text into a search string. -/
structure Settings where
  rules : Rules := {}
  fields : FieldNames := {}
  deriving DecidableEq

instance : Inhabited Settings := ⟨{}⟩

/-- A dictionary as data. -/
def Dictionary.json (d : Dictionary) : Json := .ofPairs d.entries

/-- Declared short names as data. -/
def PrefixMap.json (m : PrefixMap) : Json := m.bindings.json

/-- Rules as data. -/
def Rules.json (r : Rules) : Json :=
  .object [
    ("error_on_empty_term", .bool r.rejectEmptyTerm),
    ("error_on_quoted_identifier", .bool r.rejectQuotedName),
    ("error_on_duplicate_prefix", .bool r.rejectDuplicatePrefix),
    ("word_chars", .string r.wordChars),
    ("default_prefixes", r.defaultPrefixes.json),
    ("max_depth", .number r.maxDepth)]

/-- Settings as data. -/
def Settings.json (s : Settings) : Json :=
  .object [
    ("parser", s.rules.json),
    ("dc_mapping", s.fields.elements.json),
    ("backend_mapping", s.fields.backend.json)]

end ContextualQuery
