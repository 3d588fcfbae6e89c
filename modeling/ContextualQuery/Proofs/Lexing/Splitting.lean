import ContextualQuery.Proofs.Lexing.Tokens

/-! Texts in front of what is left of them.

    A text splits into white space, tokens, and a rest (`Splits`). Lexing splits every text: nothing is
    left of it, or a quote that is opened and never closed (`splits_ofText`), and there is no other way
    to split a text so (`ofText_of_splits`). Two texts may be put one behind the other where no token of
    the first goes on in the second (`Splits.append`). -/

namespace ContextualQuery.Lexemes

open Unicode

/-- The texts that open a quote and never close it: no quote stands behind the first one that no
    backslash holds. -/
def OpensQuote (d : List Char) : Prop :=
  ∃ u, d = '"' :: u ∧ ¬∃ v rest, Escaped isInside v ∧ u = v ++ '"' :: rest

/-- Which tokens a text starts with, and what is left behind them and behind white space. -/
inductive Splits (punctuation : String) : List Char → List Token → List Char → Prop
  | nil {b rest} (blank : ∀ c ∈ b, isBlank c = true) : Splits punctuation (b ++ rest) [] rest
  | cons {b u t rest ts d} (blank : ∀ c ∈ b, isBlank c = true) (taken : Takes punctuation u t rest)
      (later : Splits punctuation rest ts d) : Splits punctuation (b ++ (u ++ rest)) (t :: ts) d

/-- What is left of a text behind its tokens: an unclosed quote or nothing. -/
def left (l : Lexemes) : List Char := l.unterminated.elim [] String.toList

variable {punctuation source : String} {cs d more : List Char} {ts us : List Token}

/-! ### Unclosed quotes -/

theorem takeQuoted_eq_none : takeQuoted cs = none ↔
    ¬∃ v rest, Escaped isInside v ∧ cs = v ++ '"' :: rest := by
  constructor
  · rintro nothing ⟨v, rest, escaped, split⟩
    have taken : takeQuoted cs = some (v ++ ['"'], rest) := takeQuoted_eq.2 ⟨v, escaped, rfl, split⟩
    rw [nothing] at taken
    contradiction
  · intro unclosed
    cases taken : takeQuoted cs with
    | none => rfl
    | some found =>
      obtain ⟨v, escaped, -, split⟩ := takeQuoted_eq.1 taken
      exact absurd ⟨v, _, escaped, split⟩ unclosed

theorem OpensQuote.start_eq (h : OpensQuote d) : start punctuation d = .unterminated d := by
  obtain ⟨u, rfl, unclosed⟩ := h
  rw [start_quote, takeQuoted_eq_none.2 unclosed]

/-- What is met instead of a token is an unclosed quote behind white space. -/
theorem start_eq_unterminated : start punctuation cs = .unterminated d ↔
    ∃ b, cs = b ++ d ∧ (∀ c ∈ b, isBlank c = true) ∧ OpensQuote d := by
  constructor
  · intro started
    have split := List.takeWhile_append_dropWhile (p := isBlank) (l := cs)
    refine ⟨cs.takeWhile isBlank, ?_⟩
    rw [start] at started
    split at started
    next => contradiction
    next rest left =>
      rw [left] at split
      split at started
      · contradiction
      next nothing =>
        obtain rfl := Start.unterminated.inj started
        exact ⟨split.symm, fun c hc => List.mem_takeWhile_imp hc, rest, rfl,
          takeQuoted_eq_none.1 nothing⟩
    all_goals first | contradiction | (split at started <;> contradiction)
  · rintro ⟨b, rfl, blank, opens⟩
    rw [start_append_of_blank blank, opens.start_eq]

/-! ### Splitting -/

/-- A text without an unclosed quote splits up to its end. -/
theorem splits_nil_iff : Splits punctuation cs ts [] ↔ Lexes punctuation cs ts := by
  constructor
  · intro h
    generalize nothing : ([] : List Char) = d at h
    induction h with
    | nil blank =>
      subst nothing
      rw [List.append_nil]
      exact .nil blank
    | cons blank taken _ ih => exact .cons blank taken (ih nothing)
  · intro h
    induction h with
    | @nil b blank => simpa using @Splits.nil punctuation b [] blank
    | cons blank taken _ ih => exact .cons blank taken ih

theorem splits_upTo (count : Nat) : ∀ cs : List Char, cs.length ≤ count →
    Splits punctuation cs (upTo punctuation count cs).tokens (upTo punctuation count cs).left ∧
      ∀ d ∈ (upTo punctuation count cs).unterminated, OpensQuote d.toList := by
  induction count with
  | zero =>
    intro cs short
    obtain rfl := List.length_eq_zero_iff.1 (Nat.le_zero.1 short)
    exact ⟨.nil (b := []) (by simp), by simp [upTo]⟩
  | succ count ih =>
    intro cs short
    rw [upTo]
    cases started : start punctuation cs with
    | nothing =>
      refine ⟨?_, by simp⟩
      simpa [left] using @Splits.nil punctuation cs [] (start_eq_nothing.1 started)
    | unterminated d =>
      obtain ⟨b, rfl, blank, opens⟩ := start_eq_unterminated.1 started
      refine ⟨?_, by simpa using opens⟩
      simpa [left] using Splits.nil blank
    | token t rest =>
      obtain ⟨b, u, rfl, blank, taken⟩ := start_eq_token.1 started
      have shorter := length_lt_of_start started
      obtain ⟨later, opens⟩ := ih rest (by omega)
      exact ⟨.cons blank taken later, opens⟩

/-- Lexing splits a text up to its end or up to an unclosed quote. -/
theorem splits_ofText (punctuation source : String) :
    Splits punctuation source.toList (ofText punctuation source).tokens
        (ofText punctuation source).left ∧
      ∀ d ∈ (ofText punctuation source).unterminated, OpensQuote d.toList :=
  splits_upTo _ _ (Nat.le_refl _)

theorem upTo_of_splits (h : Splits punctuation cs ts d) (opens : OpensQuote d) :
    ∀ count, cs.length ≤ count →
      upTo punctuation count cs = { tokens := ts, unterminated := some (String.ofList d) } := by
  induction h with
  | @nil b d blank =>
    intro count long
    obtain ⟨u, rfl, -⟩ := id opens
    obtain ⟨count, rfl⟩ : ∃ n, count = n + 1 :=
      Nat.exists_eq_add_one.2 (by simp only [List.length_append, List.length_cons] at long; omega)
    rw [upTo, start_append_of_blank blank, opens.start_eq]
  | @cons b u t rest ts d blank taken later ih =>
    intro count long
    have some_char := taken.length_pos
    simp only [List.length_append] at long
    obtain ⟨count, rfl⟩ : ∃ n, count = n + 1 := Nat.exists_eq_add_one.2 (by omega)
    rw [upTo, start_append_of_blank blank, taken.start_eq]
    simp only [ih opens count (by omega)]

/-- A text that splits up to an unclosed quote is lexed so. -/
theorem ofText_of_splits (h : Splits punctuation source.toList ts d) (opens : OpensQuote d) :
    ofText punctuation source = { tokens := ts, unterminated := some (String.ofList d) } :=
  upTo_of_splits h opens _ (Nat.le_refl _)

/-! ### Written tokens -/

/-- Tokens as they are written, each behind a gap. -/
def written (gaps : List (List Char)) (ts : List Token) : List Char :=
  (List.zipWith (fun gap t => gap ++ t.text.toList) gaps ts).flatten

theorem Splits.taken (h : Splits punctuation cs ts d) :
    ∀ t ∈ ts, ∃ u rest, Takes punctuation u t rest := by
  induction h with
  | nil _ => simp
  | cons _ taken _ ih => exact List.forall_mem_cons.2 ⟨⟨_, _, taken⟩, ih⟩

theorem Splits.exists_written (h : Splits punctuation cs ts d) : ∃ gaps last,
    gaps.length = ts.length ∧ (∀ gap ∈ last :: gaps, ∀ c ∈ gap, isBlank c = true) ∧
      cs = written gaps ts ++ last ++ d := by
  induction h with
  | @nil b d blank => exact ⟨[], b, rfl, by simpa using blank, by simp [written]⟩
  | @cons b u t rest ts d blank taken later ih =>
    obtain ⟨gaps, last, length, blanks, rfl⟩ := ih
    obtain ⟨ending, blanks⟩ := List.forall_mem_cons.1 blanks
    refine ⟨b :: gaps, last, by simp [length],
      List.forall_mem_cons.2 ⟨ending, List.forall_mem_cons.2 ⟨blank, blanks⟩⟩, ?_⟩
    simp [written, taken.text_eq]

/-! ### One text behind another -/

theorem Lexes.eq_nil (h : Lexes punctuation [] ts) : ts = [] := by
  rcases h.start_eq with ⟨-, rfl⟩ | ⟨_, _, _, started, -⟩
  · rfl
  · simp [start] at started

theorem Splits.blank_append (h : Splits punctuation cs ts d) {b : List Char}
    (blank : ∀ c ∈ b, isBlank c = true) : Splits punctuation (b ++ cs) ts d := by
  cases h with
  | nil blank' =>
    rw [← List.append_assoc]
    exact .nil fun c hc => (List.mem_append.1 hc).elim (blank c) (blank' c)
  | cons blank' taken later =>
    rw [← List.append_assoc]
    exact .cons (fun c hc => (List.mem_append.1 hc).elim (blank c) (blank' c)) taken later

/-- The tokens of a text do not change when more text follows in which none of them goes on. -/
theorem Splits.append (h : Lexes punctuation cs ts) (ended : ∀ t ∈ ts.getLast?, t.isOpen = false)
    (boundary : Boundary punctuation more) (later : Splits punctuation more us d) :
    Splits punctuation (cs ++ more) (ts ++ us) d := by
  induction h with
  | nil blank => exact later.blank_append blank
  | @cons b u t rest ts blank taken rest_lexed ih =>
    rw [List.append_assoc, List.append_assoc, List.cons_append]
    have ended' : ∀ t ∈ ts.getLast?, t.isOpen = false := by
      intro t' ht'
      refine ended t' ?_
      cases ts with
      | nil => simp at ht'
      | cons t'' ts => rwa [List.getLast?_cons_cons]
    refine .cons blank (taken.append boundary fun empty => ?_) (ih ended')
    subst empty
    obtain rfl := rest_lexed.eq_nil
    exact ended t rfl

theorem Lexes.blank_append (h : Lexes punctuation cs ts) {b : List Char}
    (blank : ∀ c ∈ b, isBlank c = true) : Lexes punctuation (b ++ cs) ts :=
  splits_nil_iff.1 ((splits_nil_iff.2 h).blank_append blank)

theorem Lexes.append (h : Lexes punctuation cs ts) (ended : ∀ t ∈ ts.getLast?, t.isOpen = false)
    (boundary : Boundary punctuation more) (later : Lexes punctuation more us) :
    Lexes punctuation (cs ++ more) (ts ++ us) :=
  splits_nil_iff.1 (.append h ended boundary (splits_nil_iff.2 later))

end ContextualQuery.Lexemes
