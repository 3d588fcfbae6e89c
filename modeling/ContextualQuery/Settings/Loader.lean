import ContextualQuery.Settings
import ContextualQuery.Settings.Problem

/-! Loading settings from JSON text.

    A record is an object of its fields, in any order, or an array of its leading fields, in order.
    Fields that are not given keep their default, fields that are not known are passed over, and no
    field may be given twice. The first problem in the order of the text is the one reported. -/

namespace ContextualQuery.Settings

open Json (Document Defect)

/-- An outcome of loading. -/
abbrev Load := Except Problem

/-! ### Values -/

/-- Reports a value of the wrong kind. A scalar is read before it is judged. -/
def mismatch {α : Type} (wanted : Wanted) : Document → Load α
  | .scalar (.error d) _ => .error (.defect d)
  | .scalar (.ok value) _ => .error (.wrongKind (.scalar value) wanted)
  | .array .. => .error (.wrongKind .array wanted)
  | .object .. => .error (.wrongKind .object wanted)

/-- A switch. -/
def loadFlag : Document → Load Bool
  | .scalar (.ok (.bool b)) _ => .ok b
  | d => mismatch .flag d

/-- A text. -/
def loadText : Document → Load String
  | .scalar (.ok (.string s)) _ => .ok s
  | d => mismatch .text d

/-- A natural number of 64 bits. -/
def loadSize : Document → Load Nat
  | .scalar (.ok (.number (.integer false n))) _ => .ok n
  | .scalar (.ok (.number (.integer true n))) _ => .error (.negative n)
  | d => mismatch .size d

/-- What stands behind the last part of a list. -/
def loadEnding {α : Type} (ending : Option Defect) (a : α) : Load α :=
  match ending with
  | none => .ok a
  | some d => .error (.defect d)

/-! ### Dictionaries -/

/-- Binds the members of an object to a dictionary, one after the other. -/
def loadBindings (ending : Option Defect) :
    Dictionary → List (Except Defect String × Document) → Load Dictionary
  | d, [] => loadEnding ending d
  | d, (name, value) :: rest => do
    let name ← name.mapError .defect
    loadBindings ending (d.insert name (← loadText value)) rest

/-- A dictionary. Of two members with one name the later counts. -/
def loadDictionary : Document → Load Dictionary
  | .object members ending => loadBindings ending .empty members
  | d => mismatch .dictionary d

/-- Short names of context sets. They are bound in the order of their names as written, so of two
    that differ in case only the one that sorts last counts. -/
def loadPrefixes (d : Document) : Load PrefixMap := do
  return .ofList (← loadDictionary d).entries

/-! ### Records -/

/-- A field of a record: its name, and how its value is loaded into the record. -/
structure Field (α : Type) where
  name : String
  load : Document → α → Load α

/-- Loads the items of an array into the fields of a record. No item may be left over. -/
def loadItems {α : Type} (ending : Option Defect) : List (Field α) → List Document → α → Load α
  | _, [], a => loadEnding ending a
  | [], _ :: _, _ => .error (.defect .malformed)
  | field :: fields, item :: items, a => do loadItems ending fields items (← field.load item a)

/-- Loads the members of an object into the fields of a record, the given ones being taken. -/
def loadMembers {α : Type} (fields : List (Field α)) (ending : Option Defect) :
    List String → List (Except Defect String × Document) → α → Load α
  | _, [], a => loadEnding ending a
  | given, (name, value) :: rest, a => do
    let name ← name.mapError .defect
    match fields.find? (·.name == name) with
    | none =>
      match value.defect? with
      | some d => .error (.defect d)
      | none => loadMembers fields ending given rest a
    | some field =>
      if given.contains name then .error (.duplicate name)
      else loadMembers fields ending (name :: given) rest (← field.load value a)

/-- A record. -/
def loadRecord {α : Type} (wanted : Wanted) (fields : List (Field α)) (initial : α) :
    Document → Load α
  | .array items ending => loadItems ending fields items initial
  | .object members ending => loadMembers fields ending [] members initial
  | d => mismatch wanted d

/-- The fields of rules. -/
def rulesFields : List (Field Rules) := [
  ⟨"error_on_empty_term", fun d r => return { r with rejectEmptyTerm := ← loadFlag d }⟩,
  ⟨"error_on_quoted_identifier", fun d r => return { r with rejectQuotedName := ← loadFlag d }⟩,
  ⟨"error_on_duplicate_prefix", fun d r => return { r with rejectDuplicatePrefix := ← loadFlag d }⟩,
  ⟨"word_chars", fun d r => return { r with wordChars := ← loadText d }⟩,
  ⟨"default_prefixes", fun d r => return { r with defaultPrefixes := ← loadPrefixes d }⟩,
  ⟨"max_depth", fun d r => return { r with maxDepth := ← loadSize d }⟩]

/-- The fields of settings. -/
def settingsFields : List (Field Settings) := [
  ⟨"parser", fun d s => return { s with rules := ← loadRecord .rules rulesFields {} d }⟩,
  ⟨"dc_mapping", fun d s =>
    return { s with fields := { s.fields with elements := ← loadDictionary d } }⟩,
  ⟨"backend_mapping", fun d s =>
    return { s with fields := { s.fields with backend := ← loadDictionary d } }⟩]

/-! ### Texts -/

/-- Loads the one value that a text was read as, unless a defect stands behind it. -/
def loadRead {α : Type} (load : Document → Load α) (read : Document × Option Defect) : Load α := do
  loadEnding read.2 (← load read.1)

/-- Loads the one value that a text is. -/
def loadWhole {α : Type} (load : Document → Load α) (text : String) : Load α :=
  loadRead load (Document.ofText text)

/-- The settings in what a text was read as. -/
def ofRead (read : Document × Option Defect) : Load Settings :=
  loadRead (loadRecord .settings settingsFields {}) read

/-- The settings that a text holds. -/
def ofText (text : String) : Load Settings := ofRead (Document.ofText text)

end ContextualQuery.Settings

namespace ContextualQuery

/-- The short names that a text holds. -/
def PrefixMap.ofText (text : String) : Settings.Load PrefixMap :=
  Settings.loadWhole Settings.loadPrefixes text

end ContextualQuery
