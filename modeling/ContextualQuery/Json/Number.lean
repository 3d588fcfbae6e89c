import ContextualQuery.Decimal.Text
import ContextualQuery.Json.Text

/-! Numbers of JSON text. A number written without fraction and exponent is an integer while it fits
    into 64 bits; any other is rounded to a binary floating point number. -/

namespace ContextualQuery.Json

open Decimal (Binary64)

/-- A number: an integer, or a binary floating point number with a sign. -/
inductive Number where
  | integer (negative : Bool) (magnitude : Nat)
  | real (negative : Bool) (magnitude : Binary64)
  deriving DecidableEq

/-- How a number is written. -/
def Number.text : Number → String
  | .integer negative n => (if negative then "-" else "") ++ toString n
  | .real negative x => (if negative then "-" else "") ++ x.text

/-! ### Numerals -/

/-- A number as it is written, digit by digit. The fraction is empty where there is none. -/
structure Numeral where
  negative : Bool
  whole : List Char
  fraction : List Char := []
  exponent : Option (Bool × List Char) := none

/-- What is read where a number starts. Numbers that stop where a digit has to follow are cut. -/
inductive NumeralStart where
  | complete (numeral : Numeral) (rest : List Char)
  | cut
  | malformed

/-- What is left where a digit is missing. -/
def missingDigit : List Char → NumeralStart
  | [] => .cut
  | _ => .malformed

/-- Reads the exponent of a numeral, if there is one. -/
def scanExponent (n : Numeral) (cs : List Char) : NumeralStart :=
  match cs with
  | [] => .complete n []
  | c :: rest =>
    if c = 'e' ∨ c = 'E' then
      let (negative, rest) := match rest with
        | '+' :: rest => (false, rest)
        | '-' :: rest => (true, rest)
        | rest => (false, rest)
      match rest.span Char.isDigit with
      | ([], left) => missingDigit left
      | (digits, left) => .complete { n with exponent := some (negative, digits) } left
    else .complete n (c :: rest)

/-- Reads the fraction of a numeral, if there is one, and its exponent. -/
def scanFraction (n : Numeral) (cs : List Char) : NumeralStart :=
  match cs with
  | '.' :: rest =>
    match rest.span Char.isDigit with
    | ([], left) => missingDigit left
    | (digits, left) => scanExponent { n with fraction := digits } left
  | rest => scanExponent n rest

/-- Reads a numeral. No digit may follow a leading zero. -/
def scanNumeral (cs : List Char) : NumeralStart :=
  let (negative, cs) := match cs with
    | '-' :: rest => (true, rest)
    | rest => (false, rest)
  match cs.span Char.isDigit with
  | ([], left) => missingDigit left
  | ('0' :: _ :: _, _) => .malformed
  | (digits, left) => scanFraction { negative, whole := digits } left

/-! ### Values -/

/-- The number that digits stand for. -/
def digitsValue (digits : List Char) : Nat :=
  digits.foldl (fun n d => n * 10 + (d.toNat - '0'.toNat)) 0

/-- The greatest number of 64 bits. -/
def maxWord : Nat := UInt64.size - 1

/-- Appends digits to a number while it fits into 64 bits, and counts the digits that are left. -/
def appendDigits (n : Nat) : List Char → Nat × Nat
  | [] => (n, 0)
  | d :: rest =>
    let longer := n * 10 + (d.toNat - '0'.toNat)
    if longer ≤ maxWord then appendDigits longer rest else (n, rest.length + 1)

/-- A number times a power of ten, each step rounded; none where the range is exceeded. Powers below
    the range are taken in steps, of which three bring any number of 64 bits to zero. -/
def timesPowerOfTen : Nat → Binary64 → Int → Option Binary64
  | steps, x, power =>
    if power.natAbs ≤ 308 then do
      let ten ← Binary64.tenTo power.natAbs
      if 0 ≤ power then x.mul ten else x.div ten
    else if x.mantissa = 0 then some x
    else if 0 ≤ power then none
    else
      match steps with
      | 0 => some .zero
      | steps + 1 => do timesPowerOfTen steps (← x.div (← Binary64.tenTo 308)) (power + 308)

/-- The value of a numeral: its first digits that fit into 64 bits, times a power of ten. -/
def Numeral.value (n : Numeral) : Except Defect Number :=
  let (start, dropped) := appendDigits 0 n.whole
  if n.fraction.isEmpty ∧ n.exponent.isNone ∧ dropped = 0 ∧
      (!n.negative || (start ≠ 0 && start ≤ 1 <<< 63)) then
    .ok (.integer n.negative start)
  else
    let (significand, unused) := appendDigits start n.fraction
    let shift : Int := dropped - (n.fraction.length - unused : Nat)
    let exponent : Int := match n.exponent with
      | some (negative, digits) => if negative then -digitsValue digits else digitsValue digits
      | none => 0
    let value := do
      timesPowerOfTen 3 (← Binary64.ofQuotient significand 1) (shift + exponent)
    match value with
    | some x => .ok (.real n.negative x)
    | none => .error .malformed

end ContextualQuery.Json
