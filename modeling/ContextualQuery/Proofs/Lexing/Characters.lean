import ContextualQuery.Proofs.Lexing.Tokens
import ContextualQuery.Proofs.Lowercase
import ContextualQuery.Text.Fold

/-! Which characters words are made of.

    Whatever punctuation words hold, as long as it is neither white space nor starts other tokens
    (`Harmless`), a word character can start a word. So any text of word characters that ends no pair
    with a backslash is read back as one word (`takes_word`). -/

namespace ContextualQuery.Lexemes

open Unicode

variable {c : Char} {cs u rest : List Char}

theorem covers_eq_true {table : RangeTable} {n : Nat} (h : table.covers n = true) :
    ∃ r ∈ table, r.1 ≤ n ∧ n ≤ r.2 := by
  induction table with
  | nil => simp [RangeTable.covers] at h
  | cons r table ih =>
    rw [RangeTable.covers] at h
    split at h
    next below => exact ⟨r, List.mem_cons_self, of_decide_eq_true h, below⟩
    next above =>
      obtain ⟨r', mem, inside⟩ := ih h
      exact ⟨r', List.mem_cons_of_mem _ mem, inside⟩

/-- Punctuation that words may hold without taking white space or the start of another token. -/
class Harmless (punctuation : String) : Prop where
  opens : ∀ c ∈ punctuation.toList, Opens c

theorem harmless_of_all {punctuation : String}
    (all : punctuation.toList.all (fun c => !isOperator c && !isBlank c) = true) :
    Harmless punctuation :=
  ⟨fun c hc => by simpa [Opens] using List.all_eq_true.1 all c hc⟩

instance : Harmless defaultWordChars := harmless_of_all (by decide +kernel)

theorem blankRanges_refused : (blankRanges.all fun r => (List.range (r.2 + 1 - r.1)).all fun i =>
    !alphanumericRanges.covers (r.1 + i)) = true := by
  decide +kernel

/-- Letters and digits can start a word. -/
theorem opens_of_isAlphanumeric (h : isAlphanumeric c = true) : Opens c := by
  constructor
  · rw [Bool.eq_false_iff]
    intro operator
    simp only [isOperator, List.contains_eq_mem, List.mem_cons, List.not_mem_nil, or_false,
      decide_eq_true_eq] at operator
    rcases operator with rfl | rfl | rfl | rfl | rfl | rfl | rfl <;> revert h <;> decide
  · rw [Bool.eq_false_iff]
    intro blank
    obtain ⟨r, mem, low, high⟩ := covers_eq_true blank
    have refused := List.all_eq_true.1 (List.all_eq_true.1 blankRanges_refused r mem) (c.toNat - r.1)
      (List.mem_range.2 (by omega))
    rw [Nat.add_sub_cancel' low] at refused
    rw [isAlphanumeric] at h
    simp [h] at refused

section

variable {punctuation : String} [harmless : Harmless punctuation]

/-- A word character can start a word. -/
theorem opens_of_isWordChar (h : isWordChar punctuation c = true) : Opens c := by
  rw [isWordChar, Bool.or_eq_true] at h
  rcases h with letter | mark
  · exact opens_of_isAlphanumeric letter
  · exact harmless.opens c (by simpa using mark)

theorem isOperator_of_isWordChar (h : isWordChar punctuation c = true) : isOperator c = false :=
  (opens_of_isWordChar h).1

theorem isBlank_of_isWordChar (h : isWordChar punctuation c = true) : isBlank c = false :=
  (opens_of_isWordChar h).2

theorem isInside_of_isWordChar (h : isWordChar punctuation c = true) : isInside c = true := by
  simp only [isInside, bne_iff_ne]
  rintro rfl
  exact absurd (isOperator_of_isWordChar h) (by decide)

end

theorem isWordChar_of_isAlphanumeric {punctuation : String} (h : isAlphanumeric c = true) :
    isWordChar punctuation c = true := by
  rw [isWordChar, h, Bool.true_or]

theorem isAlphanumeric_backslash : isAlphanumeric '\\' = false := by
  decide

theorem ne_backslash_of_isAlphanumeric (h : isAlphanumeric c = true) : c ≠ '\\' := by
  rintro rfl
  exact absurd (isAlphanumeric_backslash.symm.trans h) (by simp)

/-! ### Words -/

section

variable {punctuation : String} [Harmless punctuation]

theorem Escaped.opens_head (h : Escaped (isWordChar punctuation) (c :: cs)) : Opens c := by
  cases h with
  | pair _ => exact opens_backslash
  | char _ admitted _ => exact opens_of_isWordChar admitted

/-- A text of pairs and word characters is read as one word. -/
theorem takes_word {s : String} (some_char : s ≠ "")
    (escaped : Escaped (isWordChar punctuation) s.toList)
    (stops : Stops (isWordChar punctuation) rest) : Takes punctuation s.toList (.word s) rest := by
  cases whole : s.toList with
  | nil => exact absurd (String.toList_eq_nil_iff.1 whole) some_char
  | cons c u =>
    rw [whole] at escaped
    have text : s = String.ofList (c :: u) := by rw [← whole, String.ofList_toList]
    rw [text]
    exact .word escaped.opens_head escaped stops

end

theorem escaped_of_isAlphanumeric {punctuation : String} (h : ∀ c ∈ cs, isAlphanumeric c = true) :
    Escaped (isWordChar punctuation) cs :=
  .of_forall fun c hc =>
    ⟨ne_backslash_of_isAlphanumeric (h c hc), isWordChar_of_isAlphanumeric (h c hc)⟩

/-! ### ASCII -/

theorem isAlphanumeric_of_bounds {low high : Nat} (inside : low ≤ c.toNat ∧ c.toNat ≤ high)
    (all : alphanumericRanges.coversAll low high = true) : isAlphanumeric c = true :=
  RangeTable.covers_of_coversAll inside.1 inside.2 all

theorem isAlphanumeric_of_isAlphanum (h : c.isAlphanum = true) : isAlphanumeric c = true := by
  rcases Bool.or_eq_true_iff.1 h with letter | digit
  · rcases Bool.or_eq_true_iff.1 letter with upper | lower
    · exact @isAlphanumeric_of_bounds c 65 90 (of_decide_eq_true upper) (by decide)
    · obtain ⟨low, high⟩ := Bool.and_eq_true_iff.1 lower
      exact @isAlphanumeric_of_bounds c 97 122 ⟨of_decide_eq_true low, of_decide_eq_true high⟩
        (by decide)
  · obtain ⟨low, high⟩ := Bool.and_eq_true_iff.1 digit
    exact @isAlphanumeric_of_bounds c 48 57 ⟨of_decide_eq_true low, of_decide_eq_true high⟩
      (by decide)

theorem isAlphanumeric_of_toLower (h : isAlphanumeric c.toLower = true) :
    isAlphanumeric c = true := by
  unfold Char.toLower at h
  split at h
  next capital => exact isAlphanumeric_of_bounds capital (by decide)
  next => exact h

end ContextualQuery.Lexemes
