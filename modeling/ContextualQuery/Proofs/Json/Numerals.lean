import ContextualQuery.Json.Document
import Mathlib.Data.List.TakeDrop

/-! Numbers of JSON text.

    A numeral is read by taking as many digits as there are, so it is read in front of any text that no
    number goes on in (`scanNumeral_append`), and nothing but numerals is read (`spells_of_scanNumeral`).

    Appending the digits of a number one by one stays within 64 bits when the number does
    (`appendDigits_toDigits`), and no digits are appended beyond that (`appendDigits_le`), so an integer
    that is read is such a number in any case. -/

namespace ContextualQuery.Json

open Document

/-! ### The grammar -/

/-- One digit or more. -/
structure IsDigits (ds : List Char) : Prop where
  some_digit : ds ≠ []
  digits : ∀ d ∈ ds, d.isDigit = true

/-- The texts of a fraction, if there is one. -/
inductive SpellsFraction : List Char → List Char → Prop
  | none : SpellsFraction [] []
  | some {ds} (digits : IsDigits ds) : SpellsFraction ds ('.' :: ds)

/-- The texts of an exponent, if there is one. -/
inductive SpellsExponent : Option (Bool × List Char) → List Char → Prop
  | none : SpellsExponent none []
  | some {e negative ds} (sign : List Char) (letter : e = 'e' ∨ e = 'E')
      (signed : (negative, sign) ∈ [(false, []), (false, ['+']), (true, ['-'])])
      (digits : IsDigits ds) : SpellsExponent (some (negative, ds)) (e :: (sign ++ ds))

/-- The texts of a numeral. No digit follows a leading zero. -/
inductive Numeral.Spells : Numeral → List Char → Prop
  | mk {negative whole decimals exponent f e} (sign : List Char)
      (signed : (negative, sign) ∈ [(false, []), (true, ['-'])]) (digits : IsDigits whole)
      (leading : ∀ d ds, whole ≠ '0' :: d :: ds) (fraction : SpellsFraction decimals f)
      (power : SpellsExponent exponent e) :
      Spells ⟨negative, whole, decimals, exponent⟩ (sign ++ (whole ++ (f ++ e)))

/-- A text that no number goes on in. -/
def Ends (rest : List Char) : Prop :=
  ∀ c ∈ rest.head?, c.isDigit = false ∧ c ≠ '.' ∧ c ≠ 'e' ∧ c ≠ 'E'

variable {n m : Nat} {cs ds rest : List Char}

/-! ### Reading numerals -/

/-- Digits are read up to what is no digit. -/
theorem span_digits (digits : ∀ d ∈ ds, d.isDigit = true)
    (stop : ∀ c ∈ rest.head?, c.isDigit = false) :
    (ds ++ rest).span Char.isDigit = (ds, rest) := by
  have none : rest.takeWhile Char.isDigit = [] ∧ rest.dropWhile Char.isDigit = rest := by
    cases rest with
    | nil => exact ⟨rfl, rfl⟩
    | cons c rest =>
      have other := stop c rfl
      exact ⟨List.takeWhile_cons_of_neg (by simp [other]), List.dropWhile_cons_of_neg (by simp [other])⟩
  rw [List.span_eq_takeWhile_dropWhile, List.takeWhile_append_of_pos digits, none.1, List.append_nil,
    List.dropWhile_append_of_pos digits, none.2]

/-- What was read is digits, and was in front of the rest. -/
theorem eq_append_of_span (h : cs.span Char.isDigit = (ds, rest)) :
    cs = ds ++ rest ∧ ∀ d ∈ ds, d.isDigit = true := by
  rw [List.span_eq_takeWhile_dropWhile] at h
  obtain ⟨rfl, rfl⟩ := Prod.mk.inj h
  exact ⟨(List.takeWhile_append_dropWhile).symm, List.all_eq_true.1 List.all_takeWhile⟩

section
variable {negative : Bool} {whole decimals f e : List Char} {exponent : Option (Bool × List Char)}
  {numeral : Numeral}

theorem missingDigit_ne : missingDigit cs ≠ .complete numeral rest := by
  cases cs <;> simp [missingDigit]

/-- `e`, a sign and digits are read as they are spelled, and a missing exponent as none. -/
theorem scanExponent_append (spells : SpellsExponent exponent e) (ends : Ends rest) :
    scanExponent ⟨negative, whole, decimals, none⟩ (e ++ rest) =
      .complete ⟨negative, whole, decimals, exponent⟩ rest := by
  cases spells with
  | none =>
    cases rest with
    | nil => rfl
    | cons c rest =>
      obtain ⟨-, -, small, large⟩ := ends c rfl
      unfold scanExponent
      simp [small, large]
  | @some letter negative' ds sign isLetter signed digits =>
    obtain ⟨d, ds, rfl⟩ := List.exists_cons_of_ne_nil digits.some_digit
    have digit : d.isDigit = true := digits.digits d List.mem_cons_self
    have taken := span_digits digits.digits fun c hc => (ends c hc).1
    have other {c : Char} (h : c.isDigit = false) : d ≠ c := by
      rintro rfl
      exact absurd (digit.symm.trans h) (by simp)
    simp only [List.mem_cons, Prod.mk.injEq, List.not_mem_nil, or_false] at signed
    obtain ⟨rfl, rfl⟩ | ⟨rfl, rfl⟩ | ⟨rfl, rfl⟩ := signed
    · rw [List.nil_append, List.cons_append, scanExponent, if_pos isLetter, taken]
      · rintro _ ⟨⟩
        exact other rfl rfl
      · rintro _ ⟨⟩
        exact other rfl rfl
    · simp only [List.cons_append, List.nil_append] at taken ⊢
      rw [scanExponent, if_pos isLetter, taken]
    · simp only [List.cons_append, List.nil_append] at taken ⊢
      rw [scanExponent, if_pos isLetter, taken]

/-- What stands behind the digits in front is no digit and no second point. -/
theorem front_exponent (power : SpellsExponent exponent e) (ends : Ends rest) :
    ∀ c ∈ (e ++ rest).head?, c.isDigit = false ∧ c ≠ '.' := by
  cases power with
  | none => exact fun c hc => ⟨(ends c hc).1, (ends c hc).2.1⟩
  | some _ letter =>
    rintro c ⟨⟩
    obtain rfl | rfl := letter <;> decide

/-- So are a point and its digits. -/
theorem scanFraction_append (fraction : SpellsFraction decimals f)
    (power : SpellsExponent exponent e) (ends : Ends rest) :
    scanFraction ⟨negative, whole, [], none⟩ (f ++ (e ++ rest)) =
      .complete ⟨negative, whole, decimals, exponent⟩ rest := by
  have read := @scanExponent_append rest negative whole decimals e exponent power ends
  have front := front_exponent power ends
  cases fraction with
  | none =>
    rw [List.nil_append, scanFraction, read]
    intro cs h
    exact (front '.' (by rw [h]; rfl)).2 rfl
  | some digits =>
    have taken := span_digits digits.digits fun c hc => (front c hc).1
    rw [List.cons_append, scanFraction, taken]
    split
    next h => exact absurd (Prod.mk.inj h).1 digits.some_digit
    next h =>
      obtain ⟨rfl, rfl⟩ := Prod.mk.inj h
      exact read

/-- A numeral is read with any text behind it that it does not go on in. -/
theorem scanNumeral_append {text : List Char} (spells : numeral.Spells text) (ends : Ends rest) :
    scanNumeral (text ++ rest) = .complete numeral rest := by
  obtain @⟨negative, whole, decimals, exponent, f, e, sign, signed, digits, leading, fraction, power⟩ :=
    spells
  have read := @scanFraction_append rest negative whole decimals f e exponent fraction power ends
  have front : ∀ c ∈ (f ++ (e ++ rest)).head?, c.isDigit = false := by
    cases fraction with
    | none => exact fun c hc => (front_exponent power ends c hc).1
    | some =>
      rintro c ⟨⟩
      decide
  have taken := span_digits digits.digits front
  have sign_free : ∀ cs, whole ++ (f ++ (e ++ rest)) ≠ '-' :: cs := by
    intro cs h
    obtain ⟨d, ds, rfl⟩ := List.exists_cons_of_ne_nil digits.some_digit
    obtain ⟨rfl, -⟩ := List.cons.inj h
    exact absurd (digits.digits '-' List.mem_cons_self) (by decide)
  simp only [List.mem_cons, Prod.mk.injEq, List.not_mem_nil, or_false] at signed
  simp only [List.append_assoc]
  obtain ⟨rfl, rfl⟩ | ⟨rfl, rfl⟩ := signed
  on_goal 1 => rw [List.nil_append, scanNumeral, taken] <;> [skip; exact sign_free]
  on_goal 2 => rw [List.cons_append, List.nil_append, scanNumeral, taken]
  all_goals
    split
    next h => exact absurd (Prod.mk.inj h).1 digits.some_digit
    next h => exact absurd (Prod.mk.inj h).1 (leading _ _)
    next h =>
      obtain ⟨rfl, rfl⟩ := Prod.mk.inj h
      exact read

/-- The other way round: an exponent that was read is spelled in front of the rest. -/
theorem spells_of_scanExponent {start : Numeral} (bare : start.exponent = none)
    (scanned : scanExponent start cs = .complete numeral rest) : ∃ exponent e,
      SpellsExponent exponent e ∧ cs = e ++ rest ∧ numeral = { start with exponent } := by
  revert scanned
  fun_cases scanExponent start cs with
  | case1 =>
    rintro ⟨⟩
    exact ⟨none, [], .none, rfl, by rw [← bare]⟩
  | case2 => exact fun scanned => absurd scanned missingDigit_ne
  | case3 letter cs isLetter negative left signed ds rest some_digit taken =>
    rintro ⟨⟩
    obtain ⟨rfl, digits⟩ := eq_append_of_span taken
    have digits : IsDigits ds := ⟨some_digit, digits⟩
    split at signed
    · cases signed
      exact ⟨_, _, .some ['+'] isLetter (by simp) digits, by simp, rfl⟩
    · cases signed
      exact ⟨_, _, .some ['-'] isLetter (by simp) digits, by simp, rfl⟩
    · cases signed
      exact ⟨_, _, .some [] isLetter (by simp) digits, by simp, rfl⟩
  | case4 =>
    rintro ⟨⟩
    exact ⟨none, [], .none, rfl, by rw [← bare]⟩

/-- And so is a fraction. -/
theorem spells_of_scanFraction {start : Numeral} (bare : start.fraction = [])
    (bare' : start.exponent = none) (scanned : scanFraction start cs = .complete numeral rest) :
    ∃ decimals f exponent e, SpellsFraction decimals f ∧ SpellsExponent exponent e ∧
      cs = f ++ (e ++ rest) ∧ numeral = { start with fraction := decimals, exponent } := by
  revert scanned
  fun_cases scanFraction start cs with
  | case1 => exact fun scanned => absurd scanned missingDigit_ne
  | case2 cs ds left some_digit taken =>
    intro scanned
    obtain ⟨rfl, digits⟩ := eq_append_of_span taken
    have bare'' : { start with fraction := ds }.exponent = none := bare'
    obtain ⟨exponent, e, power, rfl, rfl⟩ := spells_of_scanExponent bare'' scanned
    exact ⟨_, _, exponent, e, .some ⟨some_digit, digits⟩, power, rfl, rfl⟩
  | case3 =>
    intro scanned
    obtain ⟨exponent, e, power, rfl, rfl⟩ := spells_of_scanExponent bare' scanned
    exact ⟨[], [], exponent, e, .none, power, rfl, by rw [← bare]⟩

/-- What is read is a text of the numeral. -/
theorem spells_of_scanNumeral (scanned : scanNumeral cs = .complete numeral rest) :
    ∃ text, numeral.Spells text ∧ cs = text ++ rest := by
  revert scanned
  fun_cases scanNumeral cs with
  | case1 => exact fun scanned => absurd scanned missingDigit_ne
  | case2 => rintro ⟨⟩
  | case3 negative cs signed digits left some_digit leading taken =>
    intro scanned
    obtain ⟨rfl, digits⟩ := eq_append_of_span taken
    obtain ⟨decimals, f, exponent, e, fraction, power, rfl, rfl⟩ :=
      spells_of_scanFraction rfl rfl scanned
    split at signed
    · cases signed
      exact ⟨_, .mk ['-'] (by simp) ⟨some_digit, digits⟩ leading fraction power, by simp⟩
    · cases signed
      exact ⟨_, .mk [] (by simp) ⟨some_digit, digits⟩ leading fraction power, by simp⟩

/-- A number is read with any text behind it that it does not go on in. -/
theorem scanNumber_append {text : List Char} (spells : numeral.Spells text) (ends : Ends rest) :
    scanNumber (text ++ rest) = (.scalar (numeral.value.map .number) none, some rest) := by
  rw [scanNumber, scanNumeral_append spells ends]

end

/-! ### Digits -/

/-- What is appended within 64 bits stays there. -/
theorem appendDigits_le (ds : List Char) (h : n ≤ maxWord) : (appendDigits n ds).1 ≤ maxWord := by
  induction ds generalizing n with
  | nil => exact h
  | cons d ds ih =>
    rw [appendDigits]
    split
    next fits => exact ih fits
    next => exact h

theorem appendDigits_concat {d : Char} (appended : appendDigits n ds = (m, 0))
    (fits : m * 10 + (d.toNat - '0'.toNat) ≤ maxWord) :
    appendDigits n (ds ++ [d]) = (m * 10 + (d.toNat - '0'.toNat), 0) := by
  induction ds generalizing n with
  | nil =>
    obtain ⟨rfl, -⟩ := Prod.mk.inj appended
    rw [List.nil_append, appendDigits, if_pos fits, appendDigits]
  | cons d' ds ih =>
    rw [appendDigits] at appended
    rw [List.cons_append, appendDigits]
    split at appended
    next fits' => rw [if_pos fits', ih appended]
    next => simp at appended

/-- By induction on the digits: a number that fits is read back from them. -/
theorem appendDigits_toDigits (h : n ≤ maxWord) : appendDigits 0 (Nat.toDigits 10 n) = (n, 0) := by
  induction n using Nat.strongRecOn with
  | ind n ih =>
    have value {k : Nat} (single : k < 10) : (Nat.digitChar k).toNat - '0'.toNat = k :=
      Nat.toNat_digitChar_sub_48_of_lt_ten single
    by_cases single : n < 10
    · have alone := @appendDigits_concat 0 0 [] (Nat.digitChar n) rfl (by rw [value single]; omega)
      rw [Nat.toDigits_of_lt_base single, ← List.nil_append [_], alone, value single]
      simp
    · have last : n / 10 * 10 + n % 10 = n := Nat.div_add_mod' n 10
      have shorter := ih (n / 10) (by omega) (by omega)
      have digit := value (Nat.mod_lt n (by omega : 10 > 0))
      rw [Nat.toDigits_of_base_le (by omega) (by omega),
        appendDigits_concat shorter (by rw [digit, last]; exact h), digit, last]

/-- Only zero is written with a leading zero. -/
theorem head?_toDigits_ne (h : 0 < n) : (Nat.toDigits 10 n).head? ≠ some '0' := by
  induction n using Nat.strongRecOn with
  | ind n ih =>
    by_cases single : n < 10
    · rw [Nat.toDigits_of_lt_base single, List.head?_cons, Ne, Option.some.injEq,
        Nat.digitChar_eq_zero]
      omega
    · rw [Nat.toDigits_of_base_le (by omega) (by omega), List.head?_append,
        Option.or_of_isSome (by simp [Nat.toDigits_ne_nil])]
      exact ih (n / 10) (by omega) (by omega)

/-- A number is written as a numeral without fraction and exponent. -/
theorem Numeral.spells_toDigits (n : Nat) :
    Numeral.Spells { negative := false, whole := Nat.toDigits 10 n } (Nat.toDigits 10 n) := by
  have digits : IsDigits (Nat.toDigits 10 n) := by
    refine ⟨Nat.toDigits_ne_nil, fun c hc => ?_⟩
    exact Nat.isDigit_of_mem_toDigits (by omega) (by omega) hc
  have leading : ∀ d ds, Nat.toDigits 10 n ≠ '0' :: d :: ds := by
    intro d ds written
    obtain rfl | positive := Nat.eq_zero_or_pos n
    · cases written
    · exact head?_toDigits_ne positive (by rw [written]; rfl)
  have signed : (false, []) ∈ [(false, []), (true, ['-'])] := List.mem_cons_self
  simpa using Numeral.Spells.mk [] signed digits leading .none .none

/-! ### Values -/

theorem Numeral.value_toDigits (h : n ≤ maxWord) :
    Numeral.value { negative := false, whole := Nat.toDigits 10 n } = .ok (.integer false n) := by
  rw [value, appendDigits_toDigits h]
  rfl

/-- Every integer that is read has 64 bits. -/
theorem Numeral.le_of_value {numeral : Numeral} {negative : Bool}
    (h : numeral.value = .ok (.integer negative n)) : n ≤ maxWord := by
  have start := appendDigits_le numeral.whole (Nat.zero_le maxWord)
  unfold value at h
  split at h
  next first dropped appended =>
    rw [appended] at start
    split at h
    next => cases h; exact start
    next =>
      dsimp only at h
      split at h <;> cases h

end ContextualQuery.Json
