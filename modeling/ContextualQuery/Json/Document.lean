import ContextualQuery.Json.Number

/-! JSON text as it stands, sound or not.

    A document keeps what was written up to the first defect, with the defect in its place. So
    whoever walks through it in the order of the text meets the first thing that is wrong, be it a
    defect of the text or a value of the wrong kind. -/

namespace ContextualQuery.Json

/-- A value without parts. -/
inductive Scalar where
  | null
  | bool (value : Bool)
  | number (value : Number)
  | string (value : String)
  deriving DecidableEq

/-- A value as it is written. A scalar can be sound when it is passed over and still be defective
    when it is read. Lists of parts end with a bracket, or with the defect that stands behind the
    last part. -/
inductive Document where
  | scalar (read : Except Defect Scalar) (skipped : Option Defect)
  | array (items : List Document) (ending : Option Defect)
  | object (members : List (Except Defect String × Document)) (ending : Option Defect)

namespace Document

/-- Where a value has to stand and none does. -/
def broken (d : Defect) : Document := .scalar (.error d) (some d)

/-! ### From text -/

/-- A part of a text, and what follows it unless a defect stands in between. -/
abbrev Scan (α : Type) := α × Option (List Char)

/-- Drops the white space in front of a text. -/
def dropBlank (cs : List Char) : List Char :=
  cs.dropWhile fun c => [' ', '\n', '\t', '\r'].contains c

/-- What follows an expected text. -/
def expect : List Char → List Char → Except Defect (List Char)
  | [], rest => .ok rest
  | _ :: _, [] => .error .endsEarly
  | e :: expected, c :: rest => if e = c then expect expected rest else .error .malformed

/-- A value with a fixed spelling, behind its first letter. -/
def scanWord (value : Scalar) (expected : String) (cs : List Char) : Scan Document :=
  match expect expected.toList cs with
  | .ok rest => (.scalar (.ok value) none, some rest)
  | .error d => (broken d, none)

/-- A string, behind its opening quote. -/
def scanString (cs : List Char) : Scan Document :=
  let read := (readText cs).map fun s => Scalar.string (String.ofList s)
  match skipText cs with
  | .ok rest => (.scalar read none, some rest)
  | .error d => (.scalar read (some d), none)

/-- A number. Passing one over, its cut end is malformed; reading it, the text ends too early. -/
def scanNumber (cs : List Char) : Scan Document :=
  match scanNumeral cs with
  | .complete n rest => (.scalar (n.value.map .number) none, some rest)
  | .cut => (.scalar (.error .endsEarly) (some .malformed), none)
  | .malformed => (broken .malformed, none)

mutual

/-- A value. The number bounds how many values and lists of values are read. -/
def scanValue : Nat → List Char → Scan Document
  | 0, _ => (broken .malformed, none)
  | n + 1, cs =>
    match dropBlank cs with
    | [] => (broken .endsEarly, none)
    | 'n' :: rest => scanWord .null "ull" rest
    | 't' :: rest => scanWord (.bool true) "rue" rest
    | 'f' :: rest => scanWord (.bool false) "alse" rest
    | '"' :: rest => scanString rest
    | '[' :: rest =>
      match dropBlank rest with
      | [] => (.array [] (some .endsEarly), none)
      | ']' :: rest => (.array [] none, some rest)
      | rest =>
        let (items, ending, rest) := scanItems n rest
        (.array items ending, rest)
    | '{' :: rest =>
      match dropBlank rest with
      | '}' :: rest => (.object [] none, some rest)
      | rest =>
        let (members, ending, rest) := scanMembers n rest
        (.object members ending, rest)
    | c :: rest =>
      if c = '-' || c.isDigit then scanNumber (c :: rest) else (broken .malformed, none)

/-- The items of an array from the first that is left, and what ends them. -/
def scanItems : Nat → List Char → List Document × Option Defect × Option (List Char)
  | 0, _ => ([], some .malformed, none)
  | n + 1, cs =>
    match scanValue n cs with
    | (item, none) => ([item], none, none)
    | (item, some rest) =>
      match dropBlank rest with
      | [] => ([item], some .endsEarly, none)
      | ']' :: rest => ([item], none, some rest)
      | ',' :: rest =>
        match dropBlank rest with
        | ']' :: _ => ([item], some .malformed, none)
        | rest =>
          let (items, ending, rest) := scanItems n rest
          (item :: items, ending, rest)
      | _ => ([item], some .malformed, none)

/-- The members of an object from the first that is left, and what ends them. -/
def scanMembers :
    Nat → List Char → List (Except Defect String × Document) × Option Defect × Option (List Char)
  | 0, _ => ([], some .malformed, none)
  | n + 1, cs =>
    match dropBlank cs with
    | [] => ([], some .endsEarly, none)
    | '"' :: rest =>
      let name := (readText rest).map String.ofList
      match skipText rest with
      | .error d => ([(name, broken d)], none, none)
      | .ok rest =>
        match dropBlank rest with
        | [] => ([(name, broken .endsEarly)], none, none)
        | ':' :: rest =>
          match scanValue n rest with
          | (value, none) => ([(name, value)], none, none)
          | (value, some rest) =>
            match dropBlank rest with
            | [] => ([(name, value)], some .endsEarly, none)
            | '}' :: rest => ([(name, value)], none, some rest)
            | ',' :: rest =>
              let (members, ending, rest) := scanMembers n rest
              ((name, value) :: members, ending, rest)
            | _ => ([(name, value)], some .malformed, none)
        | _ => ([(name, broken .malformed)], none, none)
    | _ => ([], some .malformed, none)

end

/-- The value that a text starts with, and the defect of what follows it. Every step of the reading
    takes a character or is the last but one, so twice the length bounds the steps. -/
def ofText (s : String) : Document × Option Defect :=
  match scanValue (2 * s.toList.length + 2) s.toList with
  | (value, none) => (value, none)
  | (value, some rest) => (value, if (dropBlank rest).isEmpty then none else some .malformed)

/-! ### The first defect -/

mutual

/-- The first defect that is met in passing a value over. -/
def defect? : Document → Option Defect
  | .scalar _ skipped => skipped
  | .array items ending => (defectOfItems? items).or ending
  | .object members ending => (defectOfMembers? members).or ending

/-- The first defect that is met in passing items over. -/
def defectOfItems? : List Document → Option Defect
  | [] => none
  | item :: rest => item.defect?.or (defectOfItems? rest)

/-- The first defect that is met in passing members over. -/
def defectOfMembers? : List (Except Defect String × Document) → Option Defect
  | [] => none
  | (_, value) :: rest => value.defect?.or (defectOfMembers? rest)

end

/-- The defect in what is read. -/
def defectOfRead {α : Type} : Except Defect α → Option Defect
  | .ok _ => none
  | .error d => some d

mutual

/-- The first defect that is met in reading a value with all its parts. Lists may be nested less
    than `depth` deep. -/
def readDefect? (depth : Nat) : Document → Option Defect
  | .scalar read _ => defectOfRead read
  | .array items ending =>
    if depth ≤ 1 then some .malformed else (readDefectOfItems? (depth - 1) items).or ending
  | .object members ending =>
    if depth ≤ 1 then some .malformed else (readDefectOfMembers? (depth - 1) members).or ending

/-- The first defect that is met in reading items. -/
def readDefectOfItems? (depth : Nat) : List Document → Option Defect
  | [] => none
  | item :: rest => (item.readDefect? depth).or (readDefectOfItems? depth rest)

/-- The first defect that is met in reading members. -/
def readDefectOfMembers? (depth : Nat) : List (Except Defect String × Document) → Option Defect
  | [] => none
  | (name, value) :: rest =>
    (defectOfRead name).or ((value.readDefect? depth).or (readDefectOfMembers? depth rest))

end

end Document

/-- The first defect of a text as a single value, nested less than 128 deep. -/
def textDefect? (s : String) : Option Defect :=
  let (document, ending) := Document.ofText s
  (document.readDefect? 128).or ending

/-! ### White space -/

open Document

/-- Whether a character is white space of JSON text. -/
def isGap (c : Char) : Bool := [' ', '\n', '\t', '\r'].contains c

variable {c : Char} {b : List Char}

theorem dropBlank_append (gap : ∀ c ∈ b, isGap c = true) (cs : List Char) :
    dropBlank (b ++ cs) = dropBlank cs :=
  List.dropWhile_append_of_pos gap

theorem dropBlank_cons (h : isGap c = false) (cs : List Char) : dropBlank (c :: cs) = c :: cs := by
  rw [isGap] at h
  rw [dropBlank, List.dropWhile_cons, h, if_neg (by simp)]

theorem scanValue_append (gap : ∀ c ∈ b, isGap c = true) (n : Nat) (cs : List Char) :
    scanValue n (b ++ cs) = scanValue n cs := by
  cases n with
  | zero => rfl
  | succ n => rw [scanValue, scanValue, dropBlank_append gap]

theorem scanItems_append (gap : ∀ c ∈ b, isGap c = true) (n : Nat) (cs : List Char) :
    scanItems n (b ++ cs) = scanItems n cs := by
  cases n with
  | zero => rfl
  | succ n => rw [scanItems, scanItems, scanValue_append gap]

theorem scanMembers_append (gap : ∀ c ∈ b, isGap c = true) (n : Nat) (cs : List Char) :
    scanMembers n (b ++ cs) = scanMembers n cs := by
  cases n with
  | zero => rfl
  | succ n => rw [scanMembers, scanMembers, dropBlank_append gap]

end ContextualQuery.Json
