import ContextualQuery.Decimal.Binary64

/-! The decimal with the fewest digits that reads back as a given binary number, and of those the
    nearest to it. -/

namespace ContextualQuery.Decimal

/-- The numbers that read back as `value`: those between `low` and `high`, all three counted in
    units of `2 ^ exponent`. -/
structure Interval where
  low : Nat
  value : Nat
  high : Nat
  exponent : Int
  /-- Whether `low` and `high` themselves read back as the value. -/
  closed : Bool

namespace Interval

/-- The interval of a number, in quarters of its last place. It reaches half way to the neighbours;
    the one below a power of two is only half as far. A number with an even mantissa wins a tie. -/
def ofBinary (x : Binary64) : Interval :=
  { low := 4 * x.mantissa - if x.mantissa = 1 <<< 52 ∧ x.exponent ≠ -1074 then 1 else 2
    value := 4 * x.mantissa
    high := 4 * x.mantissa + 2
    exponent := x.exponent - 2
    closed := x.mantissa % 2 = 0 }

/-- Whether a point `p * den / num`, in the units of the interval, reads back as its value. -/
def holds (i : Interval) (num den p : Nat) : Bool :=
  if i.closed then decide (i.low * num ≤ p * den ∧ p * den ≤ i.high * num)
  else decide (i.low * num < p * den ∧ p * den < i.high * num)

/-- The multiple of `10 ^ power` that reads back as the value. Of all such multiples the two around
    the value are the nearest, and if any reads back, one of the two does. -/
def multiple? (i : Interval) (power : Int) : Option Nat :=
  let num := Nat.pow 10 (-power).toNat <<< i.exponent.toNat
  let den := Nat.pow 10 power.toNat <<< (-i.exponent).toNat
  let below := i.value * num / den
  match i.holds num den below, i.holds num den (below + 1) with
  | false, false => none
  | true, false => some below
  | false, true => some (below + 1)
  | true, true => some (roundQuotient (i.value * num) den)

/-- The multiple that reads back of the greatest power of ten possible, from a power downwards. -/
def coarsest (i : Interval) : Nat → Int → Nat × Int
  | 0, power => (0, power)
  | steps + 1, power =>
    match i.multiple? power with
    | some digits => (digits, power)
    | none => coarsest i steps (power - 1)

end Interval

/-- The digits and the power of ten of the shortest decimal that reads back as a number other than
    zero. The search starts at a power of ten above the number; seventeen digits always suffice. -/
def shortest (x : Binary64) : Nat × Int :=
  let magnitude : Int := Int.ofNat x.mantissa.log2 + x.exponent
  (Interval.ofBinary x).coarsest 22 (magnitude * 1233 / 4096 + 2)

end ContextualQuery.Decimal
