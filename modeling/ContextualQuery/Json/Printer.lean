import ContextualQuery.Json

/-! Writing JSON text, on one line or laid out over many. -/

namespace ContextualQuery.Json

/-! ### Strings -/

/-- A character of a string literal. Quotes, backslashes and control characters are escaped, all
    others are written as they are. -/
def escapeChar (c : Char) : List Char :=
  if c = '"' then ['\\', '"']
  else if c = '\\' then ['\\', '\\']
  else if c = '\x08' then ['\\', 'b']
  else if c = '\t' then ['\\', 't']
  else if c = '\n' then ['\\', 'n']
  else if c = '\x0c' then ['\\', 'f']
  else if c = '\r' then ['\\', 'r']
  else if c.toNat < 0x20 then
    ['\\', 'u', '0', '0', Nat.digitChar (c.toNat / 16), Nat.digitChar (c.toNat % 16)]
  else [c]

/-- A string literal. -/
def literal (s : String) : String := "\"" ++ String.ofList (s.toList.flatMap escapeChar) ++ "\""

/-! ### Values -/

/-- How a text is laid out: what stands in front of each item and each closing bracket, given the
    depth, and what stands between a name and its value. -/
structure Layout where
  newline : Nat → String
  colon : String

/-- All on one line, without spaces. -/
def Layout.compact : Layout := ⟨fun _ => "", ":"⟩

/-- Each item on a line of its own, two spaces deeper than the brackets around it. -/
def Layout.pretty : Layout :=
  ⟨fun depth => "\n" ++ String.ofList (List.replicate (2 * depth) ' '), ": "⟩

mutual

/-- The text of a value at a depth. -/
def renderAt (layout : Layout) (depth : Nat) : Json → String
  | .null => "null"
  | .bool b => if b then "true" else "false"
  | .number n => toString n
  | .string s => literal s
  | .array [] => "[]"
  | .array (item :: rest) =>
    "[" ++ layout.newline (depth + 1) ++ renderAt layout (depth + 1) item ++
      renderItems layout (depth + 1) rest ++ layout.newline depth ++ "]"
  | .object [] => "\x7b\x7d"
  | .object ((name, value) :: rest) =>
    "\x7b" ++ layout.newline (depth + 1) ++ literal name ++ layout.colon ++
      renderAt layout (depth + 1) value ++ renderMembers layout (depth + 1) rest ++
      layout.newline depth ++ "\x7d"

/-- The text of the items behind the first. -/
def renderItems (layout : Layout) (depth : Nat) : List Json → String
  | [] => ""
  | item :: rest =>
    "," ++ layout.newline depth ++ renderAt layout depth item ++ renderItems layout depth rest

/-- The text of the members behind the first. -/
def renderMembers (layout : Layout) (depth : Nat) : List (String × Json) → String
  | [] => ""
  | (name, value) :: rest =>
    "," ++ layout.newline depth ++ literal name ++ layout.colon ++ renderAt layout depth value ++
      renderMembers layout depth rest

end

/-- The text of a value on one line. -/
def compact (j : Json) : String := j.renderAt .compact 0

/-- The text of a value over many lines. -/
def pretty (j : Json) : String := j.renderAt .pretty 0

end ContextualQuery.Json
