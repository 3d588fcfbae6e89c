/-! Binary floating point numbers of double precision, as far as decimals need them: finite and
    without a sign, in exact arithmetic on natural numbers. -/

namespace ContextualQuery.Decimal

/-- A quotient rounded to a natural number; a half goes to the even neighbour. -/
def roundQuotient (num den : Nat) : Nat :=
  let floor := num / den
  let twice := 2 * (num % den)
  if twice < den ∨ (twice = den ∧ floor % 2 = 0) then floor else floor + 1

/-- The number `mantissa * 2 ^ exponent`. The mantissa is below `2 ^ 53`, and at least `2 ^ 52`
    unless the exponent is the least one, `-1074`. -/
structure Binary64 where
  mantissa : Nat
  exponent : Int
  deriving DecidableEq

namespace Binary64

/-- Zero. -/
def zero : Binary64 := ⟨0, -1074⟩

/-- The mantissa of `num / den` for an exponent, as numerator and denominator. -/
def scaled (num den : Nat) (exponent : Int) : Nat × Nat :=
  (num <<< (-exponent).toNat, den <<< exponent.toNat)

/-- The number nearest to `num / den`, of two the even one; none where that exceeds the range. The
    exponent is the least one for which the mantissa fits. -/
def ofQuotient (num den : Nat) : Option Binary64 :=
  if num = 0 then some zero
  else
    let least : Int := max (Int.ofNat num.log2 - Int.ofNat den.log2 - 53) (-1074)
    let (n, d) := scaled num den least
    let exponent := if n < d <<< 53 then least else least + 1
    let (n, d) := scaled num den exponent
    let mantissa := roundQuotient n d
    let result : Binary64 :=
      if mantissa = 1 <<< 53 then ⟨1 <<< 52, exponent + 1⟩ else ⟨mantissa, exponent⟩
    if result.exponent ≤ 971 then some result else none

/-- The number as numerator and denominator. -/
def quotient (x : Binary64) : Nat × Nat :=
  (x.mantissa <<< x.exponent.toNat, 1 <<< (-x.exponent).toNat)

/-- The rounded product; none where it exceeds the range. -/
def mul (x y : Binary64) : Option Binary64 :=
  ofQuotient (x.quotient.1 * y.quotient.1) (x.quotient.2 * y.quotient.2)

/-- The rounded quotient by a number other than zero; none where it exceeds the range. -/
def div (x y : Binary64) : Option Binary64 :=
  ofQuotient (x.quotient.1 * y.quotient.2) (x.quotient.2 * y.quotient.1)

/-- The number nearest to a power of ten. -/
def tenTo (n : Nat) : Option Binary64 := ofQuotient (Nat.pow 10 n) 1

end Binary64

end ContextualQuery.Decimal
