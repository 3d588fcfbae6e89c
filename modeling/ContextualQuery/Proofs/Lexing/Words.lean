import ContextualQuery.Lexemes
import Mathlib.Data.List.Basic

/-! The texts of words and of quoted terms.

    In both a backslash and the character behind it stay together (`Escaped`). A word ends in front of
    the first character that it does not admit, a quoted text with the first quote that no backslash
    holds. Only at the end of the input a backslash may have nothing to hold. -/

namespace ContextualQuery.Lexemes

/-- Texts of admitted characters and of pairs of a backslash and any character. -/
inductive Escaped (admits : Char → Bool) : List Char → Prop
  | nil : Escaped admits []
  | pair {c cs} (rest : Escaped admits cs) : Escaped admits ('\\' :: c :: cs)
  | char {c cs} (plain : c ≠ '\\') (admitted : admits c = true) (rest : Escaped admits cs) :
      Escaped admits (c :: cs)

/-- Texts at whose start no word goes on. -/
def Stops (admits : Char → Bool) (rest : List Char) : Prop :=
  ∀ c ∈ rest.head?, c ≠ '\\' ∧ admits c = false

variable {admits : Char → Bool} {cs u v w rest : List Char}

@[simp] theorem stops_nil : Stops admits [] := by
  simp [Stops]

@[simp] theorem stops_cons {c : Char} : Stops admits (c :: cs) ↔ c ≠ '\\' ∧ admits c = false := by
  simp [Stops]

namespace Escaped

theorem append (hu : Escaped admits u) (hv : Escaped admits v) : Escaped admits (u ++ v) := by
  induction hu with
  | nil => exact hv
  | pair _ ih => exact .pair ih
  | char plain admitted _ ih => exact .char plain admitted ih

theorem of_forall (h : ∀ c ∈ cs, c ≠ '\\' ∧ admits c = true) : Escaped admits cs := by
  induction cs with
  | nil => exact .nil
  | cons c cs ih =>
    obtain ⟨⟨plain, admitted⟩, rest⟩ := List.forall_mem_cons.1 h
    exact .char plain admitted (ih rest)

theorem mono {admits' : Char → Bool} (h : Escaped admits cs)
    (more : ∀ c, admits c = true → admits' c = true) : Escaped admits' cs := by
  induction h with
  | nil => exact .nil
  | pair _ ih => exact .pair ih
  | char plain admitted _ ih => exact .char plain (more _ admitted) ih

end Escaped

/-- Pairs and admitted characters are taken, whatever stands behind them. -/
theorem takeWord_escaped_append (h : Escaped admits w) (rest : List Char) :
    takeWord admits (w ++ rest) = (w ++ (takeWord admits rest).1, (takeWord admits rest).2) := by
  induction h with
  | nil => rfl
  | pair _ ih => simp [takeWord, ih]
  | @char c cs plain admitted _ ih =>
    rw [List.cons_append, takeWord.eq_3 _ _ _ (by simp [plain])]
    simp [admitted, ih]

theorem takeWord_of_escaped (h : Escaped admits w) (stops : Stops admits rest) :
    takeWord admits (w ++ rest) = (w, rest) := by
  have stopped : takeWord admits rest = ([], rest) := by
    cases rest with
    | nil => simp [takeWord]
    | cons c cs =>
      obtain ⟨plain, refused⟩ := stops_cons.1 stops
      rw [takeWord.eq_3 _ _ _ (by simp [plain])]
      simp [plain, refused]
  rw [takeWord_escaped_append h, stopped, List.append_nil]

theorem takeWord_open (h : Escaped admits w) : takeWord admits (w ++ ['\\']) = (w ++ ['\\'], []) := by
  rw [takeWord_escaped_append h]
  simp [takeWord]

/-- What is taken as a word: as many pairs and admitted characters as there are, and a backslash
    behind them if the text ends with it. -/
theorem takeWord_eq :
    takeWord admits cs = (w, rest) ↔ cs = w ++ rest ∧
      (Escaped admits w ∧ Stops admits rest ∨ rest = [] ∧ ∃ v, Escaped admits v ∧ w = v ++ ['\\']) := by
  constructor
  · intro taken
    refine ⟨by have := takeWord_append admits cs; rw [taken] at this; exact this.symm, ?_⟩
    fun_induction takeWord admits cs generalizing w rest with
    | case1 =>
      obtain ⟨rfl, rfl⟩ := Prod.mk.inj taken
      exact .inl ⟨.nil, stops_nil⟩
    | case2 c cs word left found ih =>
      obtain ⟨rfl, rfl⟩ := Prod.mk.inj taken
      rcases ih found with ⟨escaped, stops⟩ | ⟨rfl, v, escaped, rfl⟩
      · exact .inl ⟨.pair escaped, stops⟩
      · exact .inr ⟨rfl, _, .pair escaped, rfl⟩
    | case3 c cs single admitted word left found ih =>
      obtain ⟨rfl, rfl⟩ := Prod.mk.inj taken
      by_cases backslash : c = '\\'
      -- A backslash that holds no character stands at the end of the text.
      · obtain rfl : cs = [] := by
          cases cs with
          | nil => rfl
          | cons d cs => exact absurd rfl (single d cs backslash)
        obtain ⟨rfl, rfl⟩ : [] = word ∧ [] = left := by simpa [takeWord] using found
        exact .inr ⟨rfl, [], .nil, by rw [backslash]; rfl⟩
      · have admitted : admits c = true := by simpa [backslash] using admitted
        rcases ih found with ⟨escaped, stops⟩ | ⟨rfl, v, escaped, rfl⟩
        · exact .inl ⟨.char backslash admitted escaped, stops⟩
        · exact .inr ⟨rfl, _, .char backslash admitted escaped, rfl⟩
    | case4 c cs single refused =>
      obtain ⟨rfl, rfl⟩ := Prod.mk.inj taken
      exact .inl ⟨.nil, by simpa using refused⟩
  · rintro ⟨rfl, ⟨escaped, stops⟩ | ⟨rfl, v, escaped, rfl⟩⟩
    · exact takeWord_of_escaped escaped stops
    · rw [List.append_nil]
      exact takeWord_open escaped

/-- The characters between quotes. -/
def isInside (c : Char) : Bool := c != '"'

/-- What is taken as a quoted text: all up to the first quote that no backslash holds. -/
theorem takeQuoted_eq : takeQuoted cs = some (w, rest) ↔
    ∃ v, Escaped isInside v ∧ w = v ++ ['"'] ∧ cs = v ++ '"' :: rest := by
  constructor
  · intro taken
    fun_induction takeQuoted cs generalizing w rest with
    | case1 => simp at taken
    | case2 cs =>
      obtain ⟨rfl, rfl⟩ := Prod.mk.inj (Option.some.inj taken)
      exact ⟨[], .nil, rfl, rfl⟩
    | case3 c cs ih =>
      obtain ⟨⟨body, left⟩, found, equal⟩ := Option.map_eq_some_iff.1 taken
      obtain ⟨rfl, rfl⟩ := Prod.mk.inj equal
      obtain ⟨v, escaped, rfl, rfl⟩ := ih found
      exact ⟨_, .pair escaped, rfl, rfl⟩
    | case4 c cs quote single ih =>
      obtain ⟨⟨body, left⟩, found, equal⟩ := Option.map_eq_some_iff.1 taken
      obtain ⟨rfl, rfl⟩ := Prod.mk.inj equal
      obtain ⟨v, escaped, rfl, rfl⟩ := ih found
      have plain : c ≠ '\\' := by
        -- A backslash in front of a character would have been taken with it.
        rintro rfl
        cases v <;> exact single _ _ rfl rfl
      have inside : isInside c = true := by simpa [isInside] using fun h => quote h
      exact ⟨_, .char plain inside escaped, rfl, rfl⟩
  · rintro ⟨v, escaped, rfl, rfl⟩
    induction escaped with
    | nil => simp [takeQuoted]
    | pair _ ih => simp [takeQuoted, ih]
    | @char c cs plain inside _ ih =>
      have quote : c ≠ '"' := by simpa [isInside] using inside
      rw [List.cons_append, takeQuoted.eq_4 _ _ (by simpa using quote) (by simp [plain]), ih]
      rfl

end ContextualQuery.Lexemes
