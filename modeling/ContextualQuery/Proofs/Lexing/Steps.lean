import ContextualQuery.Lexer
import ContextualQuery.Proofs.Lexing.Tokens

/-! Lexing step by step.

    A lexer that goes past characters one at a time takes from what is left of its text what is taken
    from a list of characters: white space, a word, the inside of a quote. So a call gives what the
    rest of the text starts with, and goes past exactly that (`Lexer.next_eq`). -/

namespace ContextualQuery

open Lexemes Unicode

namespace Lexer

/-- What is still to be lexed. -/
def left (l : Lexer) : List Char := l.source.toList.drop l.position

/-- The lexer that has passed more characters. -/
def skip (l : Lexer) (count : Nat) : Lexer := { l with position := l.position + count }

variable {l : Lexer} {c : Char}

/-- What is left is a suffix of the text, and going on drops from it. -/
theorem left_skip (l : Lexer) (count : Nat) : (l.skip count).left = l.left.drop count := by
  rw [left, left, skip, List.drop_drop]

theorem skip_skip (l : Lexer) (m n : Nat) : (l.skip m).skip n = l.skip (m + n) := by
  rw [skip, skip, skip, Nat.add_assoc]

theorem advance_skip (l : Lexer) (n : Nat) : l.advance.skip n = l.skip (n + 1) := by
  rw [Nat.add_comm]
  exact l.skip_skip 1 n

@[simp] theorem source_skip (l : Lexer) (count : Nat) : (l.skip count).source = l.source := rfl

@[simp] theorem source_advance (l : Lexer) : l.advance.source = l.source := rfl

@[simp] theorem punctuation_advance (l : Lexer) : l.advance.punctuation = l.punctuation := rfl

/-- Looking ahead is looking into what is left. -/
theorem peek?_eq (l : Lexer) (offset : Nat) : l.peek? offset = l.left[offset]? := by
  rw [peek?, left, List.getElem?_drop]

/-- At the end of the text nothing is left. -/
theorem left_eq_nil (ended : l.current? = none) : l.left = [] := by
  rw [current?, peek?_eq] at ended
  simpa using ended

/-- The character that a lexer looks at is the next one of what is left. -/
theorem left_eq_cons (found : l.current? = some c) : l.left = c :: l.advance.left := by
  have tail : l.advance.left = l.left.drop 1 := l.left_skip 1
  rw [current?, peek?_eq] at found
  rw [tail]
  cases whole : l.left with
  | nil => simp [whole] at found
  | cons d rest => simpa [whole] using found

/-- By recursion over the blanks that are left: the lexer goes past all of them and no further. -/
theorem skipBlanks_eq (l : Lexer) : l.skipBlanks = l.skip (l.left.takeWhile isBlank).length := by
  fun_induction skipBlanks l with
  | case1 l c found blank ih =>
    rw [ih, left_eq_cons found, List.takeWhile_cons_of_pos blank, List.length_cons, advance_skip]
  | case2 l c found other =>
    rw [left_eq_cons found, List.takeWhile_cons_of_neg other]
    rfl
  | case3 l ended =>
    rw [left_eq_nil ended]
    rfl

theorem left_skipBlanks (l : Lexer) : l.skipBlanks.left = l.left.dropWhile isBlank := by
  have split := List.takeWhile_append_dropWhile (p := isBlank) (l := l.left)
  rw [skipBlanks_eq, left_skip]
  conv => enter [1, 2]; rw [← split]
  exact List.drop_left

theorem push_eq (text : String) (c : Char) : text.push c = text ++ String.ofList [c] :=
  String.toList_injective (by simp)

/-- A character moves from what is to be read to what has been read. -/
theorem push_append (text : String) (c : Char) (cs : List Char) :
    text.push c ++ String.ofList cs = text ++ String.ofList (c :: cs) :=
  String.toList_injective (by simp)

/-- A word is read as it is taken from what is left. -/
theorem readWord_eq (l : Lexer) (word : String) :
    l.readWord word = (word ++ String.ofList (takeWord (isWordChar l.punctuation) l.left).1,
      l.skip (takeWord (isWordChar l.punctuation) l.left).1.length) := by
  fun_induction readWord l word with
  | case1 l word c escaped found ih =>
    rw [ih, left_eq_cons found, left_eq_cons escaped, takeWord]
    simp only [push_append, advance_skip, punctuation_advance, List.length_cons]
  | case2 l word ended found =>
    rw [left_eq_cons found, left_eq_nil ended, push_eq]
    simp [takeWord, advance, skip]
  | case3 l word c found plain admitted ih =>
    rw [ih, left_eq_cons found, takeWord.eq_3 _ _ _ (by simp [plain]), if_pos (by simp [admitted])]
    simp only [push_append, advance_skip, punctuation_advance, List.length_cons]
  | case4 l word c found plain refused =>
    rw [left_eq_cons found, takeWord.eq_3 _ _ _ (by simp [plain]), if_neg (by simp [plain, refused])]
    simp [skip]
  | case5 l word ended =>
    rw [left_eq_nil ended]
    simp [takeWord, skip]

/-- So is the inside of a quote. -/
theorem readQuoted_eq (l : Lexer) (text : String) : l.readQuoted text =
    match takeQuoted l.left with
    | some (body, _) => (.ok (text ++ String.ofList body), l.skip body.length)
    | none => (.error ((Fault.unterminated (text ++ String.ofList l.left)).diagnostic l.source),
        l.skip l.left.length) := by
  fun_induction readQuoted l text with
  | case1 l text found =>
    rw [left_eq_cons found, takeQuoted, push_eq]
    rfl
  | case2 l text found c escaped ih =>
    rw [ih, left_eq_cons found, left_eq_cons escaped, takeQuoted]
    cases takeQuoted l.advance.advance.left <;>
      simp only [Option.map_none, Option.map_some, push_append, advance_skip, source_advance,
        List.length_cons]
  | case3 l text found ended =>
    rw [left_eq_cons found, left_eq_nil ended, push_eq]
    rfl
  | case4 l text c quote backslash found ih =>
    rw [ih, left_eq_cons found,
      takeQuoted.eq_4 _ _ quote fun _ _ escaping => (backslash escaping).elim]
    cases takeQuoted l.advance.left <;>
      simp only [Option.map_none, Option.map_some, push_append, advance_skip, source_advance,
        List.length_cons]
  | case5 l text ended =>
    rw [left_eq_nil ended, takeQuoted]
    simp [skip]

/-- What a call gives where the rest of a text starts so, and the lexer behind it. -/
def behind (l : Lexer) : Start → Except Diagnostic (Option Token) × Lexer
  | .token t rest => (.ok (some t), l.skip (l.left.length - rest.length))
  | .nothing => (.ok none, l.skip l.left.length)
  | .unterminated text =>
    (.error ((Fault.unterminated (String.ofList text)).diagnostic l.source), l.skip l.left.length)

/-- Behind a token the lexer has gone on by the length of its text. -/
theorem behind_token {t : Token} {u rest : List Char} (split : l.left = u ++ rest) :
    l.behind (.token t rest) = (.ok (some t), l.skip u.length) := by
  simp only [behind, split, List.length_append, Nat.add_sub_cancel]

/-- `(`, `)`, `/`, `=`, or any other sign. -/
theorem single_eq {rest : List Char} (left : l.left = c :: rest) (t : Token) :
    l.single t = l.behind (.token t rest) :=
  (behind_token (u := [c]) left).symm

/-- `<=`, `>=` or `<>`. -/
theorem pair_eq {c' : Char} {rest : List Char} (left : l.left = c :: c' :: rest) (t : Token) :
    l.pair t = l.behind (.token t rest) :=
  (behind_token (u := [c, c']) left).symm

theorem peek?_one (found : l.current? = some c) : l.peek? 1 = l.advance.left.head? := by
  rw [peek?_eq, left_eq_cons found, List.getElem?_cons_succ, List.head?_eq_getElem?]

/-- Behind a quote everything up to the next quote that is not escaped. -/
theorem token_quote (found : l.current? = some '"') :
    l.token = l.behind (start l.punctuation ('"' :: l.advance.left)) := by
  have left := left_eq_cons found
  have read : l.token = ((l.advance.readQuoted "\"").1.map fun text => some (.quoted text),
      (l.advance.readQuoted "\"").2) := by
    rw [token, found]
    rfl
  rw [read, readQuoted_eq, start_quote]
  have opened (cs : List Char) : "\"" ++ String.ofList cs = String.ofList ('"' :: cs) :=
    String.toList_injective (by simp)
  cases taken : takeQuoted l.advance.left with
  | none =>
    simp only [behind, left, List.length_cons, advance_skip, opened]
    rfl
  | some found =>
    obtain ⟨body, rest⟩ := found
    have split : l.left = ('"' :: body) ++ rest := by
      rw [left, ← takeQuoted_append taken, List.cons_append]
    simp only [behind_token split, List.length_cons, advance_skip, opened]
    rfl

/-- Behind `<` one more character decides. -/
theorem token_less (found : l.current? = some '<') :
    l.token = l.behind (start l.punctuation ('<' :: l.advance.left)) := by
  have left := left_eq_cons found
  simp only [token, found]
  rw [peek?_one found, start_less]
  generalize l.advance.left = cs at left ⊢
  cases cs with
  | nil => exact single_eq left _
  | cons c cs =>
    rw [List.head?_cons]
    by_cases equals : c = '='
    · subst equals
      exact pair_eq left _
    · by_cases greater : c = '>'
      · subst greater
        exact pair_eq left _
      · simpa [equals, greater] using single_eq left _

/-- So it does behind `>`, but `><` is two tokens. -/
theorem token_greater (found : l.current? = some '>') :
    l.token = l.behind (start l.punctuation ('>' :: l.advance.left)) := by
  have left := left_eq_cons found
  simp only [token, found]
  rw [peek?_one found, start_greater]
  generalize l.advance.left = cs at left ⊢
  cases cs with
  | nil => exact single_eq left _
  | cons c cs =>
    rw [List.head?_cons]
    by_cases equals : c = '='
    · subst equals
      exact pair_eq left _
    · simpa [equals] using single_eq left _

/-- A word, or a character that no word holds. -/
theorem token_opens (found : l.current? = some c) (opens : Opens c) :
    l.token = l.behind (start l.punctuation (c :: l.advance.left)) := by
  have left := left_eq_cons found
  have read : l.token = if c = '\\' || isWordChar l.punctuation c then
      (.ok (some (.word (l.readWord "").1)), (l.readWord "").2) else l.single (.symbol c) := by
    obtain ⟨operator, -⟩ := opens
    rw [token, found]
    split <;> simp_all [isOperator]
  rw [read, start_of_opens opens, readWord_eq, left]
  split
  · rw [behind_token (u := (takeWord (isWordChar l.punctuation) (c :: l.advance.left)).1)
      (left.trans (takeWord_append _ _).symm), String.empty_append]
  · exact single_eq left _

/-- Where no white space is in front of it, a token is what the rest of the text starts with. -/
theorem token_eq (here : ∀ c ∈ l.current?, isBlank c = false) :
    l.token = l.behind (start l.punctuation l.left) := by
  cases found : l.current? with
  | none =>
    have nothing : l.left = [] := left_eq_nil found
    have read : l.token = (.ok none, l) := by rw [token, found]
    rw [read, nothing]
    change _ = l.behind .nothing
    rw [behind, nothing]
    rfl
  | some c =>
    have left := left_eq_cons found
    by_cases operator : isOperator c = true
    · simp only [isOperator, List.contains_eq_mem, List.mem_cons, List.not_mem_nil, or_false,
        decide_eq_true_eq] at operator
      have single (t : Token) (here : (c, t) ∈ [('(', Token.openParen), (')', .closeParen),
          ('/', .slash), ('=', .comparison .eq)]) (read : l.token = l.single t) :
          l.token = l.behind (start l.punctuation l.left) := by
        rw [read, left, start_single here, single_eq left]
      obtain rfl | rfl | rfl | rfl | rfl | rfl | rfl := operator
      · exact left ▸ token_quote found
      · exact single .openParen (by simp) (by rw [token, found]; rfl)
      · exact single .closeParen (by simp) (by rw [token, found]; rfl)
      · exact single .slash (by simp) (by rw [token, found]; rfl)
      · exact single (.comparison .eq) (by simp) (by rw [token, found]; rfl)
      · exact left ▸ token_less found
      · exact left ▸ token_greater found
    · exact left ▸ token_opens found ⟨by simpa using operator, here c found⟩

/-- Behind the blanks there is something else or the end. -/
theorem current?_skipBlanks (l : Lexer) : ∀ c ∈ l.skipBlanks.current?, isBlank c = false := by
  intro c found
  rw [current?, peek?_eq, left_skipBlanks, ← List.head?_eq_getElem?] at found
  have stopped := List.head?_dropWhile_not isBlank l.left
  rw [found] at stopped
  exact stopped

/-- White space in front may be gone past first. -/
theorem behind_skip {n : Nat} {s : Start} (inside : n ≤ l.left.length)
    (shorter : ∀ t rest, s = .token t rest → rest.length ≤ l.left.length - n) :
    (l.skip n).behind s = l.behind s := by
  cases s with
  | token t rest =>
    have shorter := shorter t rest rfl
    simp only [behind, left_skip, List.length_drop, skip_skip]
    rw [show n + (l.left.length - n - rest.length) = l.left.length - rest.length by omega]
  | nothing | unterminated text =>
    simp only [behind, left_skip, List.length_drop, skip_skip, source_skip, Nat.add_sub_cancel' inside]

/-- A call goes past the white space and past what the text behind it starts with. -/
theorem next_eq (l : Lexer) : l.next = l.behind (start l.punctuation l.left) := by
  have split := List.takeWhile_append_dropWhile (p := isBlank) (l := l.left)
  have length := congrArg List.length split
  rw [List.length_append] at length
  have same : start l.punctuation l.left = start l.punctuation (l.left.dropWhile isBlank) := by
    conv => lhs; rw [← split]
    exact start_append_of_blank fun c hc => List.mem_takeWhile_imp hc
  have here := token_eq l.current?_skipBlanks
  rw [left_skipBlanks, skipBlanks_eq] at here
  rw [next, skipBlanks_eq, here, same]
  refine behind_skip (by omega) fun t rest started => ?_
  have shorter := length_lt_of_start started
  omega

end Lexer

end ContextualQuery
