import ContextualQuery.Proofs.Lexing.Splitting
import ContextualQuery.Proofs.Lexing.Steps

/-! Lexing loses nothing.

    Put one behind the other, the white space and the tokens that a lexer passes are the text again, up
    to a quote that is never closed, and that quote is all that ever fails:

        white space   token   white space   token   ...   white space   ( end | unclosed quote )

    A call in front of a token gives it and ends behind it, so what the calls give is read off the way in
    which a text splits (`Lexer.answer_eq`). -/

namespace ContextualQuery

open Lexemes Unicode

variable {d rest : List Char} {t : Token} {ts : List Token}

namespace Lexer

variable {l : Lexer}

/-! ### One call -/

/-- A token is handed out and gone. -/
theorem next_of_token (started : start l.punctuation l.left = .token t rest) :
    l.next.1 = .ok (some t) ∧ l.next.2.left = rest := by
  obtain ⟨b, u, split, -, -⟩ := start_eq_token.1 started
  rw [← List.append_assoc] at split
  rw [next_eq, started, behind_token split]
  exact ⟨rfl, by rw [left_skip, split, List.drop_left]⟩

/-- At the end the lexer has passed all blanks. -/
theorem next_of_nothing (ended : start l.punctuation l.left = .nothing) :
    l.next.1 = .ok none ∧ l.next.2.left = [] := by
  rw [next_eq, ended]
  exact ⟨rfl, by rw [behind, left_skip, List.drop_length]⟩

/-- An open quote is refused with everything behind it. -/
theorem next_of_unterminated (started : start l.punctuation l.left = .unterminated d) :
    l.next.1 = .error ⟨.querySyntax, String.ofList d, l.source⟩ ∧ l.next.2.left = [] := by
  rw [next_eq, started]
  exact ⟨rfl, by rw [behind, left_skip, List.drop_length]⟩

/-- A call changes nothing but the place in the text, and stays inside the text. -/
theorem next_snd (l : Lexer) : ∃ count ≤ l.left.length, l.next.2 = l.skip count := by
  rw [next_eq]
  cases start l.punctuation l.left with
  | token t rest => exact ⟨_, Nat.sub_le _ _, rfl⟩
  | nothing | unterminated text => exact ⟨_, Nat.le_refl _, rfl⟩

theorem punctuation_next (l : Lexer) : l.next.2.punctuation = l.punctuation := by
  obtain ⟨count, -, skipped⟩ := l.next_snd
  rw [skipped, skip]

theorem source_next (l : Lexer) : l.next.2.source = l.source := by
  obtain ⟨count, -, skipped⟩ := l.next_snd
  rw [skipped, skip]

/-- The position does not leave the text, as each call goes past characters that are there. -/
theorem position_next_le (h : l.position ≤ l.source.length) :
    l.next.2.position ≤ l.source.length := by
  obtain ⟨count, short, skipped⟩ := l.next_snd
  rw [left, List.length_drop, String.length_toList] at short
  simp only [skipped, skip]
  omega

/-- Every call that does not find the end gets on. -/
theorem position_lt_next (l : Lexer) (h : l.next.1 ≠ .ok none) : l.position < l.next.2.position := by
  cases started : start l.punctuation l.left with
  | nothing => exact absurd (next_of_nothing started).1 h
  | token t rest =>
    have shorter := length_lt_of_start started
    simp only [next_eq, started, behind, skip]
    omega
  | unterminated d =>
    obtain ⟨b, split, -, u, rfl, -⟩ := start_eq_unterminated.1 started
    have some_char : 0 < l.left.length := by
      rw [split, List.length_append, List.length_cons]
      omega
    simp only [next_eq, started, behind, skip]
    omega

/-! ### Call after call -/

/-- The first of several calls, then the others. -/
theorem after_succ (l : Lexer) (calls : Nat) : l.after (calls + 1) = l.next.2.after calls := by
  induction calls with
  | zero => rfl
  | succ calls ih => rw [after, ih, after]

theorem answer_zero (l : Lexer) : l.answer 0 = l.next.1 := rfl

theorem answer_succ (l : Lexer) (calls : Nat) : l.answer (calls + 1) = l.next.2.answer calls := by
  rw [answer, answer, after_succ]

theorem source_after (l : Lexer) (calls : Nat) : (l.after calls).source = l.source := by
  induction calls with
  | zero => rfl
  | succ calls ih => rw [after, source_next, ih]

/-- By induction on the number of calls. -/
theorem position_after_le (h : l.position ≤ l.source.length) (calls : Nat) :
    (l.after calls).position ≤ l.source.length := by
  induction calls with
  | zero => exact h
  | succ calls ih =>
    rw [← l.source_after calls] at ih ⊢
    exact position_next_le ih

/-- Where nothing is left, the end is told over and over. -/
theorem answer_of_left_eq_nil (h : l.left = []) (calls : Nat) : l.answer calls = .ok none := by
  have ended {l : Lexer} (h : l.left = []) : start l.punctuation l.left = .nothing := by
    rw [h]
    rfl
  induction calls generalizing l with
  | zero => exact (next_of_nothing (ended h)).1
  | succ calls ih => exact (l.answer_succ calls).trans (ih (next_of_nothing (ended h)).2)

/-- Where nothing more can be read every call gives the end. -/
theorem answer_of_nothing (ended : start l.punctuation l.left = .nothing) (calls : Nat) :
    l.answer calls = .ok none := by
  obtain ⟨first, behind⟩ := next_of_nothing ended
  cases calls with
  | zero => exact first
  | succ calls => rw [answer_succ, answer_of_left_eq_nil behind]

/-- What the calls give that do not all give the end: the tokens of a text and what ends them. -/
def answers (source : String) (parts : Lexemes) : List (Except Diagnostic (Option Token)) :=
  parts.tokens.map (fun t => .ok (some t)) ++
    [parts.unterminated.elim (.ok none) fun text => .error ⟨.querySyntax, text, source⟩]

/-- The calls give the tokens that the text splits into, then what is behind them, then the end. -/
theorem answer_eq {quote : Option String} (opens : ∀ text ∈ quote, OpensQuote text.toList)
    (split : Splits l.punctuation l.left ts (quote.elim [] String.toList)) (calls : Nat) :
    l.answer calls = (answers l.source ⟨ts, quote⟩)[calls]?.getD (.ok none) := by
  generalize whole : l.left = cs at split
  generalize ending : quote.elim [] String.toList = d at split
  generalize marks : l.punctuation = punctuation at split
  induction split generalizing l calls with
  -- No token is left: the lexer is in front of the end, or of a quote that is never closed.
  | @nil b d blank =>
    cases quote with
    | none =>
      obtain rfl : [] = d := ending
      have ended : start l.punctuation l.left = .nothing := by
        rw [whole, List.append_nil]
        exact start_eq_nothing.2 blank
      rw [answer_of_nothing ended]
      cases calls <;> rfl
    | some text =>
      obtain rfl : text.toList = d := ending
      have started : start l.punctuation l.left = .unterminated text.toList := by
        rw [whole]
        exact start_eq_unterminated.2 ⟨b, rfl, blank, opens text rfl⟩
      obtain ⟨first, behind⟩ := next_of_unterminated started
      cases calls with
      | zero => rw [answer_zero, first, String.ofList_toList]; rfl
      | succ calls =>
        rw [answer_succ, answer_of_left_eq_nil behind]
        rfl
  -- A token behind blanks. The other calls are those on the lexer behind it.
  | @cons b u t rest ts d blank taken later ih =>
    have started : start l.punctuation l.left = .token t rest := by
      rw [whole, marks]
      exact start_eq_token.2 ⟨b, u, rfl, blank, taken⟩
    obtain ⟨first, behind⟩ := next_of_token started
    cases calls with
    | zero => exact first
    | succ calls =>
      rw [answer_succ, ih calls behind ending (by rw [punctuation_next, marks]), source_next]
      rfl

/-! ### What the calls give -/

variable {source : String} {parts : Lexemes} {i : Nat}

/-- As many calls hand out tokens as there are tokens. -/
theorem getElem?_answers_token (h : i < parts.tokens.length) :
    (answers source parts)[i]?.getD (.ok none) = .ok (some parts.tokens[i]) := by
  rw [answers, List.getElem?_append_left (by simpa using h)]
  simp [h]

/-- The call behind them tells of the end, or of the quote that is open. -/
theorem getElem?_answers_ending : (answers source parts)[parts.tokens.length]?.getD (.ok none) =
    parts.unterminated.elim (.ok none) fun text => .error ⟨.querySyntax, text, source⟩ := by
  rw [answers, List.getElem?_append_right (by simp)]
  simp

/-- All later ones tell of the end. -/
theorem getElem?_answers_behind (h : parts.tokens.length < i) :
    (answers source parts)[i]?.getD (.ok none) = .ok none := by
  rw [List.getElem?_eq_none (by simp [answers]; omega)]
  rfl

/-- A call that hands out no token is behind the tokens. -/
theorem length_le_of_answers
    (h : ∀ t, (answers source parts)[i]?.getD (.ok none) ≠ .ok (some t)) :
    parts.tokens.length ≤ i := by
  by_contra! short
  exact h _ (getElem?_answers_token short)

/-- Only one call fails, the one behind the last token, and only if a quote is open. -/
theorem eq_length_of_answers {fault : Diagnostic}
    (h : (answers source parts)[i]?.getD (.ok none) = .error fault) :
    i = parts.tokens.length ∧ ∃ text, parts.unterminated = some text := by
  have no_token : ∀ t, (answers source parts)[i]?.getD (.ok none) ≠ .ok (some t) := by simp [h]
  have behind : parts.tokens.length ≤ i := length_le_of_answers no_token
  obtain later | rfl := Nat.lt_or_eq_of_le behind
  · rw [getElem?_answers_behind later] at h
    contradiction
  · refine ⟨rfl, ?_⟩
    rw [getElem?_answers_ending] at h
    cases quote : parts.unterminated with
    | none => simp [quote] at h
    | some text => exact ⟨text, rfl⟩

/-! ### Whole texts -/

/-- How a lexer takes a text apart from the front. -/
structure TakesApart (l : Lexer) (parts : Lexemes) : Prop where
  /-- Gaps of white space, the tokens as they are written and the unclosed quote make up the text. -/
  whole : ∃ gaps last, gaps.length = parts.tokens.length ∧
    (∀ gap ∈ last :: gaps, ∀ c ∈ gap, isBlank c = true) ∧
    l.source.toList = written gaps parts.tokens ++ last ++ parts.left
  /-- What is left behind the last gap is a quote that is opened and never closed. -/
  quote : ∀ text ∈ parts.unterminated, OpensQuote text.toList
  /-- The calls give token after token. -/
  tokens : ∀ i (h : i < parts.tokens.length), l.answer i = .ok (some parts.tokens[i])
  /-- The call behind them gives the end, or fails for the quote. -/
  ending : l.answer parts.tokens.length =
    parts.unterminated.elim (.ok none) fun text => .error ⟨.querySyntax, text, l.source⟩
  /-- A call fails exactly if the text has a quote that is never closed behind some tokens. -/
  fails : (∃ i fault, l.answer i = .error fault) ↔
    ∃ ts d, Splits l.punctuation l.source.toList ts d ∧ OpensQuote d
  once : ∀ i j fault fault', l.answer i = .error fault → l.answer j = .error fault' → i = j
  /-- Behind the first call that gives no token all calls give the end. -/
  final : ∀ i, (∀ t, l.answer i ≠ .ok (some t)) → ∀ j > i, l.answer j = .ok none
  position_le : ∀ i, (l.after i).position ≤ l.source.length
  position_lt : ∀ i, l.answer i ≠ .ok none → (l.after i).position < (l.after (i + 1)).position

/-- However a text is made, calls on a lexer take it apart into its lexemes. -/
theorem takesApart_ofText (punctuation source : String) :
    TakesApart { punctuation, source } (ofText punctuation source) := by
  set l : Lexer := { punctuation, source }
  have fresh : l.left = source.toList := List.drop_zero
  obtain ⟨split, opens⟩ := splits_ofText punctuation source
  generalize ofText punctuation source = parts at split opens
  have answer (i : Nat) : l.answer i = (answers source parts)[i]?.getD (.ok none) :=
    answer_eq opens (fresh ▸ split) i
  constructor
  · exact split.exists_written
  · exact opens
  · exact fun i h => (answer i).trans (getElem?_answers_token h)
  · exact (answer _).trans getElem?_answers_ending
  · constructor
    · rintro ⟨i, fault, h⟩
      obtain ⟨-, text, quote⟩ := eq_length_of_answers ((answer i).symm.trans h)
      refine ⟨_, _, split, ?_⟩
      rw [Lexemes.left, quote]
      exact opens text quote
    -- A text is split in one way only, but the answers say so without that: they are the answers of
    -- any splitting.
    · rintro ⟨ts, d, split', opens'⟩
      have read := @answer_eq ts l (some (String.ofList d)) (by simpa using opens')
        (by simpa [fresh] using split') ts.length
      exact ⟨_, _, read.trans (@getElem?_answers_ending source ⟨ts, _⟩)⟩
  · intro i j fault fault' h h'
    rw [(eq_length_of_answers ((answer i).symm.trans h)).1,
      (eq_length_of_answers ((answer j).symm.trans h')).1]
  · intro i h j later
    have behind : parts.tokens.length ≤ i := length_le_of_answers fun t => answer i ▸ h t
    exact (answer j).trans (getElem?_answers_behind (Nat.lt_of_le_of_lt behind later))
  · exact position_after_le (Nat.zero_le _)
  · exact fun i h => position_lt_next (l.after i) h

end Lexer

end ContextualQuery
