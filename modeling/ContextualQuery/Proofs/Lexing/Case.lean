import ContextualQuery.Proofs.Lexing.Printing
import ContextualQuery.Proofs.Reading.Recasing
import Mathlib.Data.List.DropRight

/-! Lexing a text in another ASCII case.

    Whether a character starts a token, goes on in one or ends it does not depend on its case, so a
    text has the same tokens in any case, each in that case (`ofText_recase`). -/

namespace ContextualQuery.Lexemes

open Text Unicode

variable {c : Char → Char} {punctuation : String}

/-- What a text starts with, in another case. -/
def Start.recase (c : Char → Char) : Start → Start
  | .token t rest => .token (t.recase c) (rest.map c)
  | .unterminated text => .unterminated (text.map c)
  | .nothing => .nothing

end ContextualQuery.Lexemes

namespace ContextualQuery.Recases

open Lexemes Text Unicode

variable {c : Char → Char} {punctuation : String} (h : Recases c)
include h

/-- A letter is a word character in either case, and a sign stays. -/
theorem isWordChar_eq (punctuation : String) (x : Char) :
    isWordChar punctuation (c x) = isWordChar punctuation x := by
  rcases h.lowered x with same | ⟨letter, letter'⟩
  · rw [same]
  · rw [isWordChar_of_isAlphanumeric letter, isWordChar_of_isAlphanumeric letter']

/-- No letter is a blank. -/
theorem isBlank_eq (x : Char) : isBlank (c x) = isBlank x := by
  rcases h.lowered x with same | ⟨letter, letter'⟩
  · rw [same]
  · rw [(opens_of_isAlphanumeric letter).2,
      (opens_of_isAlphanumeric letter').2]

theorem opens {x : Char} (hx : Opens x) : Opens (c x) := by
  rcases h.lowered x with same | ⟨-, letter⟩
  · rwa [same]
  · exact opens_of_isAlphanumeric letter

/-- Operators stay as they are. -/
theorem isOperator_fixed {x : Char} (operator : isOperator x = true) : c x = x := by
  rcases h.lowered x with same | ⟨letter, -⟩
  · exact same
  · rw [(opens_of_isAlphanumeric letter).1] at operator
    contradiction

/-- What a backslash holds, and whether it holds anything, does not depend on the case. -/
theorem no_pair {x : Char} {cs : List Char} (single : ∀ y rest, x = '\\' → cs = y :: rest → False)
    (y : Char) (rest : List Char) (backslash : c x = '\\') : cs.map c = y :: rest → False := by
  intro starts
  obtain ⟨y, rest, rfl, -, -⟩ := List.map_eq_cons_iff.1 starts
  exact single y rest ((h.eq_iff isAlphanumeric_backslash).1 backslash) rfl

/-- A word goes on with the same characters. -/
theorem goesOn_eq (x : Char) : (decide (c x = '\\') || isWordChar punctuation (c x)) =
    (decide (x = '\\') || isWordChar punctuation x) := by
  simp only [h.eq_iff isAlphanumeric_backslash, h.isWordChar_eq]

/-- By recursion along the word: pairs with a backslash first, then single characters. -/
theorem takeWord_map (cs : List Char) :
    takeWord (isWordChar punctuation) (cs.map c) =
      ((takeWord (isWordChar punctuation) cs).1.map c,
        (takeWord (isWordChar punctuation) cs).2.map c) := by
  have backslash : c '\\' = '\\' := (h.eq_iff isAlphanumeric_backslash).2 rfl
  fun_induction takeWord (isWordChar punctuation) cs with
  | case1 => rfl
  | case2 x rest word left taken ih =>
    rw [List.map_cons, List.map_cons, backslash, takeWord, ih, taken]
    simp [backslash]
  | case3 x rest single admitted word left taken ih =>
    rw [List.map_cons, takeWord.eq_3 _ _ _ (h.no_pair single), if_pos (by rwa [h.goesOn_eq]), ih, taken]
    rfl
  | case4 x rest single refused =>
    rw [List.map_cons, takeWord.eq_3 _ _ _ (h.no_pair single), if_neg (by rwa [h.goesOn_eq])]
    rfl

/-- By recursion along the quoted text, up to the first quote that is not escaped. -/
theorem takeQuoted_map (cs : List Char) :
    takeQuoted (cs.map c) = (takeQuoted cs).map fun p => (p.1.map c, p.2.map c) := by
  have backslash : c '\\' = '\\' := (h.eq_iff isAlphanumeric_backslash).2 rfl
  have quote : c '"' = '"' := (h.eq_iff isAlphanumeric_quote).2 rfl
  fun_induction takeQuoted cs with
  | case1 => rfl
  | case2 rest =>
    rw [List.map_cons, quote, takeQuoted]
    simp [quote]
  | case3 x rest ih =>
    rw [List.map_cons, List.map_cons, backslash, takeQuoted, ih, Option.map_map, Option.map_map]
    exact congrFun (congrArg Option.map (funext fun p => by simp [backslash])) _
  | case4 x rest other single ih =>
    rw [List.map_cons, takeQuoted.eq_4 _ _ ?_ (h.no_pair single), ih, Option.map_map, Option.map_map]
    · rfl
    · exact fun same => other ((h.eq_iff isAlphanumeric_quote).1 same)

/-! ### Tokens -/

omit h in
theorem start_single_map {x : Char} {t : Token} (cs : List Char)
    (single : (x, t) ∈ [('(', Token.openParen), (')', .closeParen), ('/', .slash),
      ('=', .comparison .eq)]) :
    start punctuation (x :: cs.map c) = (start punctuation (x :: cs)).recase c := by
  have sign : t.recase c = t := by
    simp only [List.mem_cons, Prod.mk.injEq, List.not_mem_nil, or_false] at single
    rcases single with ⟨-, rfl⟩ | ⟨-, rfl⟩ | ⟨-, rfl⟩ | ⟨-, rfl⟩ <;> rfl
  rw [start_single single, start_single single, Start.recase, sign]

theorem start_quote_map (cs : List Char) :
    start punctuation ('"' :: cs.map c) = (start punctuation ('"' :: cs)).recase c := by
  have quote : c '"' = '"' := (h.eq_iff isAlphanumeric_quote).2 rfl
  rw [start_quote, start_quote, h.takeQuoted_map]
  cases takeQuoted cs with
  | none => simp [Start.recase, quote]
  | some taken => simp only [Option.map_some, Start.recase, Token.recase, recase_ofList,
      List.map_cons, quote]

/-- What stands behind `<` is an operator or is not. -/
theorem start_less_map (cs : List Char) :
    start punctuation ('<' :: cs.map c) = (start punctuation ('<' :: cs)).recase c := by
  have equals (x : Char) : c x = '=' ↔ x = '=' := h.eq_iff (by decide)
  have greater (x : Char) : c x = '>' ↔ x = '>' := h.eq_iff (by decide)
  have less : c '<' = '<' := (h.eq_iff (by decide)).2 rfl
  rw [start_less, start_less]
  match cs with
  | [] => rfl
  | x :: cs =>
    by_cases eq : x = '='
    · simp [eq, (equals '=').2 rfl, Start.recase, Token.recase]
    · by_cases gt : x = '>'
      · simp [gt, (greater '>').2 rfl, Start.recase, Token.recase]
      · simp [eq, gt, equals, greater, Start.recase, Token.recase]

theorem start_greater_map (cs : List Char) :
    start punctuation ('>' :: cs.map c) = (start punctuation ('>' :: cs)).recase c := by
  have equals (x : Char) : c x = '=' ↔ x = '=' := h.eq_iff (by decide)
  rw [start_greater, start_greater]
  match cs with
  | [] => rfl
  | x :: cs =>
    by_cases eq : x = '='
    · simp [eq, (equals '=').2 rfl, Start.recase, Token.recase]
    · simp [eq, equals, Start.recase, Token.recase]

/-- A text that starts with a sign does so in any case. -/
theorem start_operator_map {x : Char} (operator : isOperator x = true) (cs : List Char) :
    start punctuation ((x :: cs).map c) = (start punctuation (x :: cs)).recase c := by
  rw [List.map_cons, h.isOperator_fixed operator]
  simp only [isOperator, List.contains_eq_mem, List.mem_cons, List.not_mem_nil, or_false,
    decide_eq_true_eq] at operator
  rcases operator with rfl | rfl | rfl | rfl | rfl | rfl | rfl
  · exact h.start_quote_map cs
  · exact start_single_map cs (t := .openParen) (by simp)
  · exact start_single_map cs (t := .closeParen) (by simp)
  · exact start_single_map cs (t := .slash) (by simp)
  · exact start_single_map cs (t := .comparison .eq) (by simp)
  · exact h.start_less_map cs
  · exact h.start_greater_map cs

/-- A word in another case, or a sign. -/
theorem start_opens_map {x : Char} (front : Opens x) (cs : List Char) :
    start punctuation ((x :: cs).map c) = (start punctuation (x :: cs)).recase c := by
  rw [List.map_cons, start_of_opens (h.opens front), start_of_opens front, ← List.map_cons,
    h.takeWord_map, h.goesOn_eq]
  split
  · simp [Start.recase, Token.recase]
  · rfl

/-- A text starts with the same token in any case, in that case. -/
theorem start_map (cs : List Char) :
    start punctuation (cs.map c) = (start punctuation cs).recase c := by
  have passed : isBlank ∘ c = isBlank := funext h.isBlank_eq
  have skipped (ds : List Char) :
      start punctuation ds = start punctuation (ds.dropWhile isBlank) := by
    rw [start, start, List.dropWhile_idempotent]
  rw [skipped (cs.map c), skipped cs, List.dropWhile_map, passed]
  have front := List.head?_dropWhile_not isBlank cs
  cases left : cs.dropWhile isBlank with
  | nil => rfl
  | cons x ds =>
    rw [left] at front
    cases operator : isOperator x with
    | true => exact h.start_operator_map operator ds
    | false => exact h.start_opens_map ⟨operator, front⟩ ds

/-! ### Whole texts -/

/-- By induction on the number of tokens. -/
theorem upTo_map (count : Nat) : ∀ cs : List Char,
    upTo punctuation count (cs.map c) = (upTo punctuation count cs).recase c := by
  induction count with
  | zero => exact fun _ => rfl
  | succ count ih =>
    intro cs
    rw [upTo, upTo, h.start_map]
    cases start punctuation cs with
    | nothing => rfl
    | unterminated text => simp [Start.recase, Lexemes.recase]
    | token t rest => simp [Start.recase, Lexemes.recase, ih]

/-- A text has the same lexemes in any case, in that case. -/
theorem ofText_recase (s : String) :
    ofText punctuation (Text.recase c s) = (ofText punctuation s).recase c := by
  rw [ofText, ofText, toList_recase, List.length_map, h.upTo_map]

end ContextualQuery.Recases
