import ContextualQuery.Json.Printer
import ContextualQuery.Json.Text

/-! String literals.

    A literal is passed over up to the first quote that no backslash escapes, whatever stands behind it
    (`skipText_eq_ok`). What can be read can also be passed over, but not the other way round: half of a
    pair of surrogates stands for no character.

    Every character of a string is written such that it is read back by itself
    (`readText_escapeChar`), so literals are read back as they are made, character by character. -/

namespace ContextualQuery.Json

/-! ### The grammar -/

/-- The texts between the quotes of string literals. -/
inductive IsLiteral : List Char → Prop
  | nil : IsLiteral []
  | plain {c cs} (quote : c ≠ '"') (backslash : c ≠ '\\') (visible : ¬c.toNat < 0x20)
      (tail : IsLiteral cs) : IsLiteral (c :: cs)
  | escape {c cs} (known : (escaped? c).isSome = true) (tail : IsLiteral cs) :
      IsLiteral ('\\' :: c :: cs)
  | unit {d e f g cs} (hex : (hexQuad? d e f g).isSome = true) (tail : IsLiteral cs) :
      IsLiteral ('\\' :: 'u' :: d :: e :: f :: g :: cs)

variable {c : Char} {cs rest : List Char}

/-! ### Whole literals -/

/-- What is passed over is a literal and its closing quote. -/
theorem skipText_eq_ok :
    skipText cs = .ok rest ↔ ∃ inside, IsLiteral inside ∧ cs = inside ++ '"' :: rest := by
  constructor
  · intro skipped
    fun_induction skipText cs with
    | case2 left =>
      cases skipped
      exact ⟨[], .nil, rfl⟩
    | case3 _ _ _ _ _ hex ih =>
      obtain ⟨inside, literal, rfl⟩ := ih skipped
      exact ⟨_, .unit hex literal, rfl⟩
    | case6 _ _ _ _ known ih =>
      obtain ⟨inside, literal, rfl⟩ := ih skipped
      exact ⟨_, .escape known literal, rfl⟩
    | case10 _ _ quote _ _ _ backslash visible ih =>
      obtain ⟨inside, literal, rfl⟩ := ih skipped
      exact ⟨_, .plain quote backslash visible literal, rfl⟩
    | _ => cases skipped
  · rintro ⟨inside, literal, rfl⟩
    induction literal with
    | nil => rfl
    | plain quote backslash visible _ ih =>
      rw [List.cons_append, skipText_plain quote backslash visible, ih]
    | escape known _ ih => rw [List.cons_append, List.cons_append, skipText_escape known, ih]
    | unit hex _ ih =>
      simp only [List.cons_append]
      rw [skipText_unit hex, ih]

theorem exists_of_map_eq_ok {ε α β : Type} {f : α → β} {x : Except ε α} {b : β}
    (h : x.map f = .ok b) : ∃ a, x = .ok a := by
  cases x with
  | error e => cases h
  | ok a => exact ⟨a, rfl⟩

/-- What can be read can be passed over. -/
theorem exists_skipText_of_readText {s : List Char} (read : readText cs = .ok s) :
    ∃ rest, skipText cs = .ok rest := by
  fun_induction readText cs generalizing s with
  | case2 rest => exact ⟨rest, rfl⟩
  | case6 _ _ _ _ _ hex _ _ _ _ _ _ _ _ hex' _ ih =>
    obtain ⟨_, read⟩ := exists_of_map_eq_ok read
    rw [skipText_unit (by rw [hex]; rfl), skipText_unit (by rw [hex']; rfl)]
    exact ih read
  | case12 _ _ _ _ _ _ hex _ _ ih =>
    obtain ⟨_, read⟩ := exists_of_map_eq_ok read
    rw [skipText_unit (by rw [hex]; rfl)]
    exact ih read
  | case14 _ _ _ _ _ known ih =>
    obtain ⟨_, read⟩ := exists_of_map_eq_ok read
    rw [skipText_escape (by rw [known]; rfl)]
    exact ih read
  | case18 _ _ quote _ _ _ backslash visible ih =>
    obtain ⟨_, read⟩ := exists_of_map_eq_ok read
    rw [skipText_plain quote backslash visible]
    exact ih read
  | _ => cases read

/-- What stands behind the closing quote makes no difference. -/
theorem readText_append : ∀ {cs : List Char}, IsLiteral cs → ∀ rest : List Char,
    readText (cs ++ '"' :: rest) = readText (cs ++ ['"'])
  | _, .nil, _ => rfl
  | _, .plain quote backslash visible tail, rest => by
    rw [List.cons_append, List.cons_append, readText_plain quote backslash visible,
      readText_plain quote backslash visible, readText_append tail rest]
  | _, .escape known tail, rest => by
    obtain ⟨e, known⟩ := Option.isSome_iff_exists.1 known
    simp only [List.cons_append]
    rw [readText_escape known, readText_escape known, readText_append tail rest]
  | _, @IsLiteral.unit d e f g cs hex tail, rest => by
    obtain ⟨unit, hex⟩ := Option.isSome_iff_exists.1 hex
    have single := readText_append tail rest
    simp only [List.cons_append]
    rw [readText, readText, hex]
    simp only [single]
    split
    · rfl
    split
    · -- The first of a pair: its partner is the next unit, if that is one.
      cases tail with
      | nil => rfl
      | plain quote backslash visible tail => simp [backslash]
      | escape known tail => simp [ne_of_escaped known]
      | unit hex' tail =>
        have pair := readText_append tail rest
        simp only [List.cons_append, pair]
    · rfl

/-! ### Written strings -/

theorem hexDigit?_digitChar : ∀ n < 16, hexDigit? (Nat.digitChar n) = some n := by
  decide

/-- The two digits of a control character, behind two zeros. -/
theorem hexQuad?_digitChar {n : Nat} (small : n < 0x20) :
    hexQuad? '0' '0' (Nat.digitChar (n / 16)) (Nat.digitChar (n % 16)) = some n := by
  have zero : hexDigit? '0' = some 0 := rfl
  simp only [hexQuad?, zero, hexDigit?_digitChar (n / 16) (by omega),
    hexDigit?_digitChar (n % 16) (by omega), Option.bind_eq_bind, Option.bind_some,
    Option.pure_def, Option.some.injEq]
  omega

/-- An escaped control character is read back. -/
theorem readText_control (small : c.toNat < 0x20) :
    readText ('\\' :: 'u' :: '0' :: '0' :: Nat.digitChar (c.toNat / 16) ::
      Nat.digitChar (c.toNat % 16) :: cs) = (readText cs).map (c :: ·) := by
  have trailing : isTrailing c.toNat = false := decide_eq_false (by omega)
  have leading : isLeading c.toNat = false := decide_eq_false (by omega)
  rw [readText, hexQuad?_digitChar small]
  simp [trailing, leading, Char.ofNat_toNat]

/-- So is any character that was escaped, and any that need not be. -/
theorem readText_escapeChar (c : Char) (cs : List Char) :
    readText (escapeChar c ++ cs) = (readText cs).map (c :: ·) := by
  unfold escapeChar
  iterate 7
    split
    next letter => subst letter; rfl
  split
  next small => exact readText_control small
  next visible => exact readText_plain ‹_› ‹_› visible

/-- An escaped character in front of a literal. -/
theorem IsLiteral.escapeChar_append (c : Char) (tail : IsLiteral cs) :
    IsLiteral (escapeChar c ++ cs) := by
  unfold escapeChar
  iterate 7
    split
    next letter => exact tail.escape rfl
  split
  next small => exact tail.unit (by rw [hexQuad?_digitChar small]; rfl)
  next visible => exact tail.plain ‹_› ‹_› visible

/-- A string that was escaped character by character is read back up to its closing quote. -/
theorem readText_literal (cs rest : List Char) :
    readText (cs.flatMap escapeChar ++ '"' :: rest) = .ok cs := by
  induction cs with
  | nil => rfl
  | cons c cs ih =>
    rw [List.flatMap_cons, List.append_assoc, readText_escapeChar, ih]
    rfl

theorem isLiteral_flatMap (cs : List Char) : IsLiteral (cs.flatMap escapeChar) := by
  induction cs with
  | nil => exact .nil
  | cons c cs ih => exact ih.escapeChar_append c

theorem toList_literal (s : String) :
    (literal s).toList = '"' :: (s.toList.flatMap escapeChar ++ ['"']) := by
  simp [literal]

end ContextualQuery.Json
