import ContextualQuery.Proofs.Lexing.Words
import Mathlib.Data.List.TakeWhile

/-! The tokens of a text.

    `Takes` says which characters a token is written with, given the text behind it, and `Lexes` which
    tokens a text is made of. Lexing is exactly that (`ofText_eq`). What is taken as a token stays it
    when more text follows in which the token does not go on (`Takes.append`). -/

namespace ContextualQuery

namespace Lexemes

open Unicode

/-! ### Single tokens -/

/-- The characters that quotes, parentheses, slashes and comparisons start with. -/
def isOperator (c : Char) : Bool := ['"', '(', ')', '/', '=', '<', '>'].contains c

/-- A character that the first token of a text can be a word or a symbol with. -/
def Opens (c : Char) : Prop := isOperator c = false ∧ isBlank c = false

/-- Characters that are taken as a token when `rest` follows them. -/
inductive Takes (punctuation : String) : List Char → Token → List Char → Prop
  | word {c u rest} (opens : Opens c) (escaped : Escaped (isWordChar punctuation) (c :: u))
      (stops : Stops (isWordChar punctuation) rest) :
      Takes punctuation (c :: u) (.word (String.ofList (c :: u))) rest
  | openWord {u} (opens : ∀ c ∈ u.head?, Opens c) (escaped : Escaped (isWordChar punctuation) u) :
      Takes punctuation (u ++ ['\\']) (.word (String.ofList (u ++ ['\\']))) []
  | quoted {u rest} (escaped : Escaped isInside u) :
      Takes punctuation ('"' :: (u ++ ['"'])) (.quoted (String.ofList ('"' :: (u ++ ['"'])))) rest
  | openParen {rest} : Takes punctuation ['('] .openParen rest
  | closeParen {rest} : Takes punctuation [')'] .closeParen rest
  | slash {rest} : Takes punctuation ['/'] .slash rest
  | eq {rest} : Takes punctuation ['='] (.comparison .eq) rest
  | le {rest} : Takes punctuation ['<', '='] (.comparison .le) rest
  | ne {rest} : Takes punctuation ['<', '>'] (.comparison .ne) rest
  | lt {rest} (ends : ∀ c ∈ rest.head?, c ≠ '=' ∧ c ≠ '>') :
      Takes punctuation ['<'] (.comparison .lt) rest
  | ge {rest} : Takes punctuation ['>', '='] (.comparison .ge) rest
  | gt {rest} (ends : ∀ c ∈ rest.head?, c ≠ '=') : Takes punctuation ['>'] (.comparison .gt) rest
  | symbol {c rest} (opens : Opens c) (plain : c ≠ '\\')
      (refused : isWordChar punctuation c = false) : Takes punctuation [c] (.symbol c) rest

/-- The tokens that a text without an unclosed quote is made of. -/
inductive Lexes (punctuation : String) : List Char → List Token → Prop
  | nil {b} (blank : ∀ c ∈ b, isBlank c = true) : Lexes punctuation b []
  | cons {b u t rest ts} (blank : ∀ c ∈ b, isBlank c = true) (taken : Takes punctuation u t rest)
      (later : Lexes punctuation rest ts) : Lexes punctuation (b ++ (u ++ rest)) (t :: ts)

variable {punctuation : String} {cs u b rest more : List Char} {t : Token} {ts us : List Token}

/-- A token is written as it was read. -/
theorem Takes.text_eq (h : Takes punctuation u t rest) : t.text = String.ofList u := by
  cases h <;> rfl

/-- No token starts with a blank. -/
theorem Takes.head (h : Takes punctuation u t rest) : ∃ c v, u = c :: v ∧ isBlank c = false := by
  cases h with
  | word opens _ _ => exact ⟨_, _, rfl, opens.2⟩
  | @openWord u opens _ =>
    cases u with
    | nil => exact ⟨_, _, rfl, by decide⟩
    | cons c u => exact ⟨c, _, rfl, (opens c rfl).2⟩
  | symbol opens _ _ => exact ⟨_, _, rfl, opens.2⟩
  | _ => exact ⟨_, _, rfl, by decide⟩

/-- Blanks in front change nothing. -/
theorem start_append_of_blank (hb : ∀ c ∈ b, isBlank c = true) :
    start punctuation (b ++ cs) = start punctuation cs := by
  rw [start, start, List.dropWhile_append_of_pos hb]

/-- A character that is neither a blank nor an operator starts a word or is a sign. -/
theorem start_of_opens {c : Char} (opens : Opens c) :
    start punctuation (c :: cs) =
      if c = '\\' || isWordChar punctuation c then
        .token (.word (String.ofList (takeWord (isWordChar punctuation) (c :: cs)).1))
          (takeWord (isWordChar punctuation) (c :: cs)).2
      else .token (.symbol c) cs := by
  obtain ⟨operator, blank⟩ := opens
  rw [start, List.dropWhile_cons_of_neg (by simp [blank])]
  split <;> simp_all [isOperator]

theorem start_quote : start punctuation ('"' :: cs) =
    match takeQuoted cs with
    | some (body, left) => .token (.quoted (String.ofList ('"' :: body))) left
    | none => .unterminated ('"' :: cs) := by
  rw [start, List.dropWhile_cons_of_neg (by decide)]
  rfl

/-- `<=`, `<>` or `<`. -/
theorem start_less : start punctuation ('<' :: cs) =
    match cs with
    | '=' :: cs => .token (.comparison .le) cs
    | '>' :: cs => .token (.comparison .ne) cs
    | cs => .token (.comparison .lt) cs := by
  rw [start, List.dropWhile_cons_of_neg (by decide)]
  cases cs with
  | nil => rfl
  | cons d cs =>
    by_cases equals : d = '='
    · subst equals
      rfl
    · by_cases greater : d = '>'
      · subst greater
        rfl
      · simp [equals, greater]

/-- `>=` or `>`. -/
theorem start_greater : start punctuation ('>' :: cs) =
    match cs with
    | '=' :: cs => .token (.comparison .ge) cs
    | cs => .token (.comparison .gt) cs := by
  rw [start, List.dropWhile_cons_of_neg (by decide)]
  cases cs with
  | nil => rfl
  | cons d cs =>
    by_cases equals : d = '='
    · subst equals
      rfl
    · simp [equals]

theorem start_single {c : Char} (h : (c, t) ∈ [('(', Token.openParen), (')', .closeParen),
    ('/', .slash), ('=', .comparison .eq)]) : start punctuation (c :: cs) = .token t cs := by
  simp only [List.mem_cons, Prod.mk.injEq, List.not_mem_nil, or_false] at h
  rcases h with ⟨rfl, rfl⟩ | ⟨rfl, rfl⟩ | ⟨rfl, rfl⟩ | ⟨rfl, rfl⟩ <;>
    (rw [start, List.dropWhile_cons_of_neg (by decide)]; rfl)

theorem opens_backslash : Opens '\\' := by
  unfold Opens
  decide

/-- The first character of a word is a word character or a backslash. -/
theorem Escaped.admits_head {admits : Char → Bool} {c : Char} (h : Escaped admits (c :: cs)) :
    (decide (c = '\\') || admits c) = true := by
  cases h with
  | pair _ => rfl
  | char _ admitted _ => simp [admitted]

/-- What is taken of a text is what the text starts with. One case for each kind of token. -/
theorem Takes.start_eq (h : Takes punctuation u t rest) :
    start punctuation (u ++ rest) = .token t rest := by
  cases h with
  | @word c u rest opens escaped stops =>
    rw [List.cons_append, start_of_opens opens, if_pos escaped.admits_head, ← List.cons_append,
      takeWord_of_escaped escaped stops]
  | @openWord u opens escaped =>
    rw [List.append_nil]
    cases u with
    | nil =>
      rw [List.nil_append, start_of_opens opens_backslash, if_pos (by simp)]
      exact congrArg (fun p => Start.token (.word (String.ofList p.1)) p.2) (takeWord_open .nil)
    | cons c u =>
      rw [List.cons_append, start_of_opens (opens c rfl), if_pos escaped.admits_head,
        ← List.cons_append, takeWord_open escaped]
  | @quoted u rest escaped =>
    have taken : takeQuoted (u ++ ['"'] ++ rest) = some (u ++ ['"'], rest) :=
      takeQuoted_eq.2 ⟨_, escaped, rfl, by simp⟩
    rw [List.cons_append, start_quote, taken]
  | openParen | closeParen | slash | eq => exact start_single (by simp)
  | le | ne => exact start_less
  | ge => exact start_greater
  | lt ends =>
    rw [List.singleton_append, start_less]
    split <;> simp_all
  | gt ends =>
    rw [List.singleton_append, start_greater]
    split <;> simp_all
  | symbol opens plain refused =>
    rw [List.singleton_append, start_of_opens opens, if_neg (by simp [plain, refused])]

/-- A quoted text that was started has been closed. -/
theorem takes_of_start_quote (started : start punctuation ('"' :: cs) = .token t rest) :
    ∃ u, '"' :: cs = u ++ rest ∧ Takes punctuation u t rest := by
  rw [start_quote] at started
  split at started
  next body left taken =>
    obtain ⟨rfl, rfl⟩ := (Start.token.injEq ..).mp started
    obtain ⟨v, escaped, rfl, rfl⟩ := takeQuoted_eq.1 taken
    exact ⟨_, by simp, .quoted escaped⟩
  next => simp at started

theorem takes_of_start_single {c : Char} {k : Token}
    (single : (c, k) ∈ [('(', Token.openParen), (')', .closeParen), ('/', .slash),
      ('=', .comparison .eq)])
    (started : start punctuation (c :: cs) = .token t rest) :
    ∃ u, c :: cs = u ++ rest ∧ Takes punctuation u t rest := by
  rw [start_single single] at started
  obtain ⟨rfl, rfl⟩ := (Start.token.injEq ..).mp started
  simp only [List.mem_cons, Prod.mk.injEq, List.not_mem_nil, or_false] at single
  rcases single with ⟨rfl, rfl⟩ | ⟨rfl, rfl⟩ | ⟨rfl, rfl⟩ | ⟨rfl, rfl⟩
  · exact ⟨_, rfl, .openParen⟩
  · exact ⟨_, rfl, .closeParen⟩
  · exact ⟨_, rfl, .slash⟩
  · exact ⟨_, rfl, .eq⟩

theorem takes_of_start_less (started : start punctuation ('<' :: cs) = .token t rest) :
    ∃ u, '<' :: cs = u ++ rest ∧ Takes punctuation u t rest := by
  rw [start_less] at started
  split at started
  next cs =>
    obtain ⟨rfl, rfl⟩ := (Start.token.injEq ..).mp started
    exact ⟨_, rfl, .le⟩
  next cs =>
    obtain ⟨rfl, rfl⟩ := (Start.token.injEq ..).mp started
    exact ⟨_, rfl, .ne⟩
  next cs no_equals no_greater =>
    obtain ⟨rfl, rfl⟩ := (Start.token.injEq ..).mp started
    refine ⟨_, rfl, .lt fun d hd => ?_⟩
    obtain ⟨ds, rfl⟩ := List.head?_eq_some_iff.1 hd
    exact ⟨fun h => no_equals ds (h ▸ rfl), fun h => no_greater ds (h ▸ rfl)⟩

theorem takes_of_start_greater (started : start punctuation ('>' :: cs) = .token t rest) :
    ∃ u, '>' :: cs = u ++ rest ∧ Takes punctuation u t rest := by
  rw [start_greater] at started
  split at started
  next cs =>
    obtain ⟨rfl, rfl⟩ := (Start.token.injEq ..).mp started
    exact ⟨_, rfl, .ge⟩
  next cs no_equals =>
    obtain ⟨rfl, rfl⟩ := (Start.token.injEq ..).mp started
    refine ⟨_, rfl, .gt fun d hd => ?_⟩
    obtain ⟨ds, rfl⟩ := List.head?_eq_some_iff.1 hd
    exact fun h => no_equals ds (h ▸ rfl)

/-- One of the seven operators, told apart. -/
theorem takes_of_start_operator {c : Char} (operator : isOperator c = true)
    (started : start punctuation (c :: cs) = .token t rest) :
    ∃ u, c :: cs = u ++ rest ∧ Takes punctuation u t rest := by
  simp only [isOperator, List.contains_eq_mem, List.mem_cons, List.not_mem_nil, or_false,
    decide_eq_true_eq] at operator
  rcases operator with rfl | rfl | rfl | rfl | rfl | rfl | rfl
  · exact takes_of_start_quote started
  · exact takes_of_start_single (k := .openParen) (by simp) started
  · exact takes_of_start_single (k := .closeParen) (by simp) started
  · exact takes_of_start_single (k := .slash) (by simp) started
  · exact takes_of_start_single (k := .comparison .eq) (by simp) started
  · exact takes_of_start_less started
  · exact takes_of_start_greater started

/-- The other way round: what the text starts with is taken of it. -/
theorem takes_of_start {c : Char} (front : isBlank c = false)
    (started : start punctuation (c :: cs) = .token t rest) :
    ∃ u, c :: cs = u ++ rest ∧ Takes punctuation u t rest := by
  cases operator : isOperator c with
  | true => exact takes_of_start_operator operator started
  | false =>
    rw [start_of_opens ⟨operator, front⟩] at started
    split at started
    next admitted =>
      obtain ⟨w, left, taken⟩ : ∃ w left, takeWord (isWordChar punctuation) (c :: cs) = (w, left) :=
        ⟨_, _, rfl⟩
      rw [taken] at started
      obtain ⟨rfl, rfl⟩ := (Start.token.injEq ..).mp started
      obtain ⟨split, ⟨escaped, stops⟩ | ⟨rfl, v, escaped, rfl⟩⟩ := takeWord_eq.1 taken
      -- The word is not empty: its first character is the one that was admitted.
      · cases w with
        | nil =>
          obtain rfl : c :: cs = left := split
          obtain ⟨plain, refused⟩ := stops_cons.1 stops
          simp [plain, refused] at admitted
        | cons d w =>
          obtain ⟨rfl, rfl⟩ := List.cons.inj split
          exact ⟨c :: w, rfl, .word ⟨operator, front⟩ escaped stops⟩
      · refine ⟨_, split, .openWord ?_ escaped⟩
        intro d hd
        obtain ⟨v, rfl⟩ := List.head?_eq_some_iff.1 hd
        obtain ⟨rfl, -⟩ := List.cons.inj split
        exact ⟨operator, front⟩
    next refused =>
      obtain ⟨rfl, rfl⟩ := (Start.token.injEq ..).mp started
      obtain ⟨plain, refused⟩ : c ≠ '\\' ∧ isWordChar punctuation c = false := by simpa using refused
      exact ⟨_, rfl, .symbol ⟨operator, front⟩ plain refused⟩

/-- The first token of a text is what can be taken behind the white space in front of it. -/
theorem start_eq_token : start punctuation cs = .token t rest ↔
    ∃ b u, cs = b ++ (u ++ rest) ∧ (∀ c ∈ b, isBlank c = true) ∧ Takes punctuation u t rest := by
  constructor
  · intro started
    have split := List.takeWhile_append_dropWhile (p := isBlank) (l := cs)
    have blank : ∀ c ∈ cs.takeWhile isBlank, isBlank c = true := fun c hc => List.mem_takeWhile_imp hc
    rw [← split, start_append_of_blank blank] at started
    have front := List.head?_dropWhile_not isBlank cs
    cases left : cs.dropWhile isBlank with
    | nil =>
      rw [left] at started
      simp [start] at started
    | cons c ds =>
      rw [left] at started front
      obtain ⟨u, equal, taken⟩ := takes_of_start front started
      exact ⟨_, u, by rw [← equal, ← left, split], blank, taken⟩
  · rintro ⟨b, u, rfl, blank, taken⟩
    rw [start_append_of_blank blank, taken.start_eq]

/-! ### Whole texts -/

/-- A text starts with nothing if it is all blank. -/
theorem start_eq_nothing : start punctuation cs = .nothing ↔ ∀ c ∈ cs, isBlank c = true := by
  constructor
  · intro ended
    cases left : cs.dropWhile isBlank with
    | nil =>
      intro c hc
      have split := List.takeWhile_append_dropWhile (p := isBlank) (l := cs)
      rw [left, List.append_nil] at split
      exact List.mem_takeWhile_imp (split.symm ▸ hc)
    | cons c ds =>
      have front := List.head?_dropWhile_not isBlank cs
      rw [left] at front
      rw [start, left] at ended
      split at ended
      · contradiction
      · split at ended <;> contradiction
      all_goals first | contradiction | (split at ended <;> contradiction)
  · intro blank
    rw [start, List.dropWhile_eq_nil_iff.2 blank]

theorem Takes.length_pos (h : Takes punctuation u t rest) : 0 < u.length := by
  obtain ⟨c, v, rfl, -⟩ := h.head
  simp

/-- A text that lexes to tokens starts with the first of them. -/
theorem Lexes.start_eq (h : Lexes punctuation cs ts) :
    start punctuation cs = .nothing ∧ ts = [] ∨ ∃ t rest us,
      start punctuation cs = .token t rest ∧ ts = t :: us ∧ Lexes punctuation rest us := by
  cases h with
  | nil blank => exact .inl ⟨start_eq_nothing.2 blank, rfl⟩
  | cons blank taken later =>
    exact .inr ⟨_, _, _, start_eq_token.2 ⟨_, _, rfl, blank, taken⟩, rfl, later⟩

/-- A token takes a character at least, so lexing comes to an end. -/
theorem length_lt_of_start (started : start punctuation cs = .token t rest) :
    rest.length < cs.length := by
  obtain ⟨b, u, rfl, -, taken⟩ := start_eq_token.1 started
  have := taken.length_pos
  simp only [List.length_append]
  omega

/-- By induction on the number of tokens that may be read, which the length of the text bounds. -/
theorem upTo_eq (count : Nat) : ∀ (cs : List Char) (ts : List Token), cs.length ≤ count →
    (upTo punctuation count cs = { tokens := ts } ↔ Lexes punctuation cs ts) := by
  -- On the count, which never runs out: each token takes a character at least.
  induction count with
  | zero =>
    intro cs ts short
    obtain rfl := List.length_eq_zero_iff.1 (Nat.le_zero.1 short)
    have ended : start punctuation [] = .nothing := rfl
    constructor
    · intro same
      obtain rfl : [] = ts := (Lexemes.mk.injEq ..).mp same |>.1
      exact .nil (by simp)
    · intro lexed
      rcases lexed.start_eq with ⟨-, rfl⟩ | ⟨t, rest, us, started, -⟩
      · rfl
      · simp [ended] at started
  | succ count ih =>
    intro cs ts short
    rw [upTo]
    constructor
    · intro same
      split at same
      next ended =>
        obtain rfl : [] = ts := (Lexemes.mk.injEq ..).mp same |>.1
        exact .nil (start_eq_nothing.1 ended)
      next text started => simp at same
      next t rest started =>
        obtain ⟨rfl, closed⟩ := (Lexemes.mk.injEq ..).mp same
        obtain ⟨b, u, rfl, blank, taken⟩ := start_eq_token.1 started
        have shorter := length_lt_of_start started
        exact .cons blank taken ((ih rest _ (by omega)).1 (by rw [← closed]))
    · intro lexed
      rcases lexed.start_eq with ⟨ended, rfl⟩ | ⟨t, rest, us, started, rfl, later⟩
      · rw [ended]
      · have shorter := length_lt_of_start started
        simp only [started, (ih rest us (by omega)).2 later]

/-- The lexemes of a text are those that it is made of. -/
theorem ofText_eq {source : String} :
    ofText punctuation source = { tokens := ts } ↔ Lexes punctuation source.toList ts :=
  upTo_eq _ _ _ (Nat.le_refl _)

/-! ### One text behind another -/

/-- Whether a text ends with a backslash that holds no character. -/
def endsOpen : List Char → Bool
  | '\\' :: _ :: rest => endsOpen rest
  | ['\\'] => true
  | _ :: rest => endsOpen rest
  | [] => false

/-- Whether a text ends with an open backslash is decided behind its pairs. -/
theorem Escaped.endsOpen_append {admits : Char → Bool} (h : Escaped admits u) (v : List Char) :
    endsOpen (u ++ v) = endsOpen v := by
  induction h with
  | nil => rfl
  | pair _ ih => simpa [endsOpen] using ih
  | @char c cs plain _ _ ih =>
    rw [List.cons_append, endsOpen.eq_3 _ _ (by simp [plain]) (by simp [plain]), ih]

theorem Escaped.endsOpen_eq {admits : Char → Bool} (h : Escaped admits u) :
    endsOpen u = false := by
  have alone := h.endsOpen_append []
  rw [List.append_nil] at alone
  exact alone.trans rfl

/-- A text is made of pairs and admitted characters if a word takes all of it and does not end open. -/
theorem escaped_iff {admits : Char → Bool} :
    Escaped admits u ↔ takeWord admits u = (u, []) ∧ endsOpen u = false := by
  rw [takeWord_eq, List.append_nil]
  constructor
  · intro escaped
    exact ⟨⟨rfl, .inl ⟨escaped, stops_nil⟩⟩, escaped.endsOpen_eq⟩
  · rintro ⟨⟨-, ⟨escaped, -⟩ | ⟨-, v, escaped, rfl⟩⟩, ended⟩
    · exact escaped
    · have opened := escaped.endsOpen_append ['\\']
      rw [ended] at opened
      cases opened

end Lexemes

/-- Whether a token is a word that ends with a backslash that holds no character. -/
def Token.isOpen : Token → Bool
  | .word s => Lexemes.endsOpen s.toList
  | _ => false

namespace Lexemes

open Unicode

variable {punctuation : String} {cs u rest more : List Char} {t : Token} {ts us : List Token}

/-- A text in front of which every token ends that is not open. -/
def Boundary (punctuation : String) (more : List Char) : Prop :=
  ∀ c ∈ more.head?, c ≠ '\\' ∧ isWordChar punctuation c = false ∧ c ≠ '=' ∧ c ≠ '>'

theorem Boundary.stops_append (h : Boundary punctuation more)
    (stops : Stops (isWordChar punctuation) rest) : Stops (isWordChar punctuation) (rest ++ more) := by
  cases rest with
  | nil => exact fun c hc => ⟨(h c hc).1, (h c hc).2.1⟩
  | cons c rest => exact stops

/-- What is taken as a token stays it when more text follows, unless the token is open there. -/
theorem Takes.append (h : Takes punctuation u t rest) (boundary : Boundary punctuation more)
    (ended : rest = [] → t.isOpen = false) : Takes punctuation u t (rest ++ more) := by
  cases h with
  | word opens escaped stops => exact .word opens escaped (boundary.stops_append stops)
  | openWord opens escaped =>
    have opened := escaped.endsOpen_append ['\\']
    simp [Token.isOpen, opened, endsOpen] at ended
  | quoted escaped => exact .quoted escaped
  | openParen => exact .openParen
  | closeParen => exact .closeParen
  | slash => exact .slash
  | eq => exact .eq
  | le => exact .le
  | ne => exact .ne
  | ge => exact .ge
  | lt ends =>
    refine .lt fun c hc => ?_
    cases rest with
    | nil => exact (boundary c hc).2.2
    | cons d rest => exact ends c hc
  | gt ends =>
    refine .gt fun c hc => ?_
    cases rest with
    | nil => exact (boundary c hc).2.2.1
    | cons d rest => exact ends c hc
  | symbol opens plain refused => exact .symbol opens plain refused

end Lexemes

end ContextualQuery
