import ContextualQuery.Decimal.Shortest

/-! How a decimal is written: with a point where it has at most sixteen digits before it and no more
    than four zeros behind it, otherwise with one digit before the point and a power of ten, whose
    sign is always written. -/

namespace ContextualQuery.Decimal

/-- A text of zeros. -/
def zeros (n : Nat) : String := String.ofList (List.replicate n '0')

/-- An exponent with its sign. -/
def signed (exponent : Int) : String :=
  if 0 ≤ exponent then "+" ++ toString exponent else toString exponent

/-- The text of `digits * 10 ^ power`. -/
def text (digits : Nat) (power : Int) : String :=
  let ds := (toString digits).toList
  let point := Int.ofNat ds.length + power
  if 0 ≤ power ∧ point ≤ 16 then String.ofList ds ++ zeros power.toNat ++ ".0"
  else if 0 < point ∧ point ≤ 16 then
    String.ofList (ds.take point.toNat) ++ "." ++ String.ofList (ds.drop point.toNat)
  else if -5 < point ∧ point ≤ 0 then "0." ++ zeros (-point).toNat ++ String.ofList ds
  else
    let fraction := if ds.length = 1 then "" else "." ++ String.ofList (ds.drop 1)
    String.ofList (ds.take 1) ++ fraction ++ "e" ++ signed (point - 1)

/-- The text of a binary number. -/
def Binary64.text (x : Binary64) : String :=
  if x.mantissa = 0 then "0.0"
  else
    let (digits, power) := shortest x
    Decimal.text digits power

end ContextualQuery.Decimal
