import ContextualQuery.Json.Document
import ContextualQuery.Text.Escaped

/-! Why a text holds no settings. -/

namespace ContextualQuery.Settings

/-- The kinds of values that settings are made of. -/
inductive Wanted where | settings | rules | flag | text | dictionary | size
  deriving DecidableEq

/-- What a kind is called in a message. -/
def Wanted.phrase : Wanted → String
  | .settings => "struct Settings"
  | .rules => "struct ParserConfig"
  | .flag => "a boolean"
  | .text => "a string"
  | .dictionary => "a map"
  | .size => "usize"

/-- A value of the wrong kind. -/
inductive Found where
  | scalar (value : Json.Scalar)
  | array
  | object
  deriving DecidableEq

/-- What a value is called in a message. -/
def Found.phrase : Found → String
  | .scalar .null => "null"
  | .scalar (.bool b) => "boolean `" ++ (if b then "true" else "false") ++ "`"
  | .scalar (.number (.integer negative n)) =>
    "integer `" ++ (Json.Number.integer negative n).text ++ "`"
  | .scalar (.number (.real negative x)) =>
    "floating point `" ++ (Json.Number.real negative x).text ++ "`"
  | .scalar (.string s) => "string " ++ Text.escaped s
  | .array => "sequence"
  | .object => "map"

/-- The first thing that is wrong with a text. -/
inductive Problem where
  | defect (defect : Json.Defect)
  | wrongKind (found : Found) (wanted : Wanted)
  /-- A number below zero where a size belongs. -/
  | negative (magnitude : Nat)
  /-- A field that is given a second time. -/
  | duplicate (field : String)
  deriving DecidableEq

/-- What is wrong, in words. Where the text is no JSON text, nothing more is said. -/
def Problem.message : Problem → String
  | .defect _ => "invalid settings"
  | .wrongKind found wanted =>
    "invalid settings: invalid type: " ++ found.phrase ++ ", expected " ++ wanted.phrase
  | .negative n =>
    "invalid settings: invalid value: integer `-" ++ toString n ++ "`, expected " ++
      Wanted.size.phrase
  | .duplicate field => "invalid settings: duplicate field `" ++ field ++ "`"

end ContextualQuery.Settings
