/-! String literals of JSON text.

    A literal can be passed over or be read. Reading asks for more: an escaped surrogate must have
    its partner. Both start behind the opening quote. -/

namespace ContextualQuery.Json

/-- Why a text is no JSON text: more has to follow, or nothing can make it one. -/
inductive Defect where | endsEarly | malformed
  deriving DecidableEq

/-! ### Escapes -/

/-- The value of a hexadecimal digit. -/
def hexDigit? (c : Char) : Option Nat :=
  if '0' ≤ c ∧ c ≤ '9' then some (c.toNat - '0'.toNat)
  else if 'a' ≤ c ∧ c ≤ 'f' then some (c.toNat - 'a'.toNat + 10)
  else if 'A' ≤ c ∧ c ≤ 'F' then some (c.toNat - 'A'.toNat + 10)
  else none

/-- The value of four hexadecimal digits. -/
def hexQuad? (a b c d : Char) : Option Nat := do
  return ((← hexDigit? a) * 16 + (← hexDigit? b)) * 256 + (← hexDigit? c) * 16 + (← hexDigit? d)

/-- The defect of an escape with fewer than four characters behind it. Its four digits are four
    bytes; where as many bytes are left the text does not end too early. -/
def shortQuad (left : List Char) : Defect :=
  if (String.ofList left).utf8ByteSize < 4 then .endsEarly else .malformed

/-- The character that a backslash and a letter stand for. -/
def escaped? : Char → Option Char
  | '"' => some '"'
  | '\\' => some '\\'
  | '/' => some '/'
  | 'b' => some '\x08'
  | 'f' => some '\x0c'
  | 'n' => some '\n'
  | 'r' => some '\r'
  | 't' => some '\t'
  | _ => none

/-- Whether a unit is the first of a pair. -/
def isLeading (unit : Nat) : Bool := decide (0xD800 ≤ unit ∧ unit ≤ 0xDBFF)

/-- Whether a unit is the second of a pair. -/
def isTrailing (unit : Nat) : Bool := decide (0xDC00 ≤ unit ∧ unit ≤ 0xDFFF)

/-- The character that a pair of units stands for. -/
def pairChar (leading trailing : Nat) : Char :=
  Char.ofNat (0x10000 + (leading - 0xD800) * 0x400 + (trailing - 0xDC00))

/-! ### Literals -/

/-- What follows a literal that is passed over. -/
def skipText : List Char → Except Defect (List Char)
  | [] => .error .endsEarly
  | '"' :: rest => .ok rest
  | '\\' :: 'u' :: a :: b :: c :: d :: rest =>
    if (hexQuad? a b c d).isSome then skipText rest else .error .malformed
  | '\\' :: 'u' :: left => .error (shortQuad left)
  | '\\' :: c :: rest => if (escaped? c).isSome then skipText rest else .error .malformed
  | c :: rest =>
    if c = '\\' then .error .endsEarly
    else if c.toNat < 0x20 then .error .malformed
    else skipText rest

variable {c : Char} {cs : List Char}

theorem ne_of_escaped (known : (escaped? c).isSome = true) : c ≠ 'u' := by
  rintro rfl
  exact absurd known (by decide)

theorem skipText_plain (quote : c ≠ '"') (backslash : c ≠ '\\') (visible : ¬c.toNat < 0x20) :
    skipText (c :: cs) = skipText cs := by
  rw [skipText, if_neg backslash, if_neg visible] <;> simp [quote, backslash]

theorem skipText_escape (known : (escaped? c).isSome = true) :
    skipText ('\\' :: c :: cs) = skipText cs := by
  rw [skipText, if_pos known] <;> simp [ne_of_escaped known]

theorem skipText_unit {d e f g : Char} (hex : (hexQuad? d e f g).isSome = true) :
    skipText ('\\' :: 'u' :: d :: e :: f :: g :: cs) = skipText cs := by
  rw [skipText, if_pos hex]

/-- The characters that a literal stands for. -/
def readText : List Char → Except Defect (List Char)
  | [] => .error .endsEarly
  | '"' :: _ => .ok []
  | '\\' :: 'u' :: a :: b :: c :: d :: rest =>
    match hexQuad? a b c d with
    | none => .error .malformed
    | some unit =>
      if isTrailing unit then .error .malformed
      else if isLeading unit then
        match rest with
        | '\\' :: 'u' :: e :: f :: g :: h :: rest =>
          match hexQuad? e f g h with
          | none => .error .malformed
          | some second =>
            if isTrailing second then (readText rest).map (pairChar unit second :: ·)
            else .error .malformed
        | '\\' :: 'u' :: left => .error (shortQuad left)
        | ['\\'] | [] => .error .endsEarly
        | _ => .error .malformed
      else (readText rest).map (Char.ofNat unit :: ·)
  | '\\' :: 'u' :: left => .error (shortQuad left)
  | '\\' :: c :: rest =>
    match escaped? c with
    | some e => (readText rest).map (e :: ·)
    | none => .error .malformed
  | c :: rest =>
    if c = '\\' then .error .endsEarly
    else if c.toNat < 0x20 then .error .malformed
    else (readText rest).map (c :: ·)

theorem readText_plain (quote : c ≠ '"') (backslash : c ≠ '\\') (visible : ¬c.toNat < 0x20) :
    readText (c :: cs) = (readText cs).map (c :: ·) := by
  rw [readText, if_neg backslash, if_neg visible] <;> simp [quote, backslash]

theorem readText_escape {e : Char} (known : escaped? c = some e) :
    readText ('\\' :: c :: cs) = (readText cs).map (e :: ·) := by
  have other := ne_of_escaped (c := c) (by rw [known]; rfl)
  rw [readText, known] <;> simp [other]

end ContextualQuery.Json
