/-! Sets of characters written down as tables.

    A character class of the Unicode standard is a table of code point ranges in ascending order.
    Looking a code point up stops at the first range that does not end below it. -/

namespace ContextualQuery.Unicode

/-- Code point ranges, both ends included, ascending and disjoint. -/
abbrev RangeTable := List (Nat × Nat)

/-- Whether a range of the table holds the code point. -/
def RangeTable.covers : RangeTable → Nat → Bool
  | [], _ => false
  | (low, high) :: rest, n => if n ≤ high then decide (low ≤ n) else RangeTable.covers rest n

end ContextualQuery.Unicode
