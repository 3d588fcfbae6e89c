import ContextualQuery.Proofs.Lexing.Words

/-! Parentheses and phrases in search strings.

    A phrase reaches from a double quote to the next one, and a backslash in it hides the character
    behind it. What counts of the parentheses are those outside phrases.

              ( ↺ )
                        "              \
            outside n  ──▶  inside n  ──▶  hidden n
                       ◀──            ◀──
                        "        any character

    The search strings of clauses open no parenthesis: they are made of characters without any meaning
    of this kind and end with a phrase at most (`Fragment`). So they leave the scan where it was
    (`Fragment.run_eq`), and where a space or a closing parenthesis follows, a text tells how far they
    reach (`Fragment.takeFragment_eq`). -/

namespace ContextualQuery

open Lexemes Unicode

/-! ### Scanning parentheses -/

/-- Where a scan of a search string has got to, and how many parentheses are open there. -/
inductive Scan where | outside (opened : Nat) | inside (opened : Nat) | hidden (opened : Nat) | broken
  deriving DecidableEq

/-- A step of the scan over one character. -/
def Scan.step : Scan → Char → Scan
  | .outside n, '(' => .outside (n + 1)
  | .outside (n + 1), ')' => .outside n
  | .outside 0, ')' => .broken
  | .outside n, '"' => .inside n
  | .outside n, _ => .outside n
  | .inside n, '"' => .outside n
  | .inside n, '\\' => .hidden n
  | .inside n, _ => .inside n
  | .hidden n, _ => .inside n
  | .broken, _ => .broken

/-- A scan over a number of characters. -/
def Scan.run (s : Scan) (cs : List Char) : Scan := cs.foldl step s

/-- Whether the parentheses outside phrases are balanced in a text, and all phrases closed. -/
def Balanced (text : String) : Prop := Scan.run (.outside 0) text.toList = .outside 0

instance (text : String) : Decidable (Balanced text) :=
  inferInstanceAs (Decidable (_ = _))

/-- Whether a character is neither white space nor a parenthesis nor a double quote. -/
def isPlain (c : Char) : Bool := !isBlank c && c != '(' && c != ')' && c != '"'

namespace Scan

variable {n : Nat} {c : Char} {cs ds : List Char}

theorem run_append (s : Scan) (cs ds : List Char) : s.run (cs ++ ds) = (s.run cs).run ds :=
  List.foldl_append

theorem step_plain (h : isPlain c = true) : step (.outside n) c = .outside n := by
  simp only [isPlain, Bool.and_eq_true, bne_iff_ne] at h
  obtain ⟨⟨⟨-, opens⟩, closes⟩, quotes⟩ := h
  unfold step
  split <;> simp_all

theorem run_plain (h : ∀ c ∈ cs, isPlain c = true) : run (.outside n) cs = .outside n := by
  induction cs with
  | nil => rfl
  | cons c cs ih =>
    obtain ⟨plain, rest⟩ := List.forall_mem_cons.1 h
    change run (step (.outside n) c) cs = _
    rw [step_plain plain, ih rest]

theorem run_inside (h : Escaped isInside cs) : run (.inside n) cs = .inside n := by
  induction h with
  | nil => rfl
  | pair _ ih => exact ih
  | @char c cs plain inside _ ih =>
    have quote : c ≠ '"' := by simpa [isInside] using inside
    have stays : step (.inside n) c = .inside n := by
      unfold step
      split <;> simp_all
    change run (step (.inside n) c) cs = _
    rw [stays, ih]

/-- A phrase leaves the scan where it was. -/
theorem run_phrase (h : Escaped isInside cs) :
    run (.outside n) ('"' :: (cs ++ ['"'])) = .outside n := by
  change run (.inside n) (cs ++ ['"']) = _
  rw [run_append, run_inside h]
  rfl

end Scan

/-! ### Fragments -/

/-- Plain characters with a phrase behind them or none. -/
inductive Fragment : List Char → Prop
  | plain {u} (plain : ∀ c ∈ u, isPlain c = true) : Fragment u
  | phrase {u body} (plain : ∀ c ∈ u, isPlain c = true) (closed : Escaped isInside body) :
      Fragment (u ++ '"' :: (body ++ ['"']))

/-- A text in front of which fragments end. -/
def Bounds (rest : List Char) : Prop := ∀ c ∈ rest.head?, c = ' ' ∨ c = ')'

/-- The fragment at the start of a text, and what follows it. -/
def takeFragment (cs : List Char) : List Char × List Char :=
  match cs.dropWhile isPlain with
  | '"' :: rest =>
    match takeQuoted rest with
    | some (body, left) => (cs.takeWhile isPlain ++ '"' :: body, left)
    | none => (cs.takeWhile isPlain, '"' :: rest)
  | rest => (cs.takeWhile isPlain, rest)

namespace Fragment

variable {u v cs rest : List Char} {n : Nat}

theorem prepend (plain : ∀ c ∈ u, isPlain c = true) (h : Fragment cs) : Fragment (u ++ cs) := by
  have both {v : List Char} (plain' : ∀ c ∈ v, isPlain c = true) :
      ∀ c ∈ u ++ v, isPlain c = true :=
    List.forall_mem_append.2 ⟨plain, plain'⟩
  cases h with
  | plain plain' => exact .plain (both plain')
  | phrase plain' closed =>
    rw [← List.append_assoc]
    exact .phrase (both plain') closed

/-- A fragment leaves the scan where it was. -/
theorem run_eq (h : Fragment cs) : Scan.run (.outside n) cs = .outside n := by
  cases h with
  | plain plain => exact Scan.run_plain plain
  | phrase plain closed => rw [Scan.run_append, Scan.run_plain plain, Scan.run_phrase closed]

theorem takeFragment_eq (h : Fragment cs) (bounds : Bounds rest) :
    takeFragment (cs ++ rest) = (cs, rest) := by
  cases h with
  | plain plain =>
    have stops : rest.takeWhile isPlain = [] ∧ rest.dropWhile isPlain = rest := by
      cases rest with
      | nil => exact ⟨rfl, rfl⟩
      | cons c rest => rcases bounds c rfl with rfl | rfl <;> exact ⟨rfl, rfl⟩
    rw [takeFragment, List.dropWhile_append_of_pos plain, List.takeWhile_append_of_pos plain,
      stops.1, stops.2, List.append_nil]
    cases rest with
    | nil => rfl
    | cons c rest => rcases bounds c rfl with rfl | rfl <;> rfl
  | @phrase u body plain closed =>
    have taken : takeQuoted (body ++ '"' :: rest) = some (body ++ ['"'], rest) :=
      takeQuoted_eq.2 ⟨body, closed, rfl, rfl⟩
    have whole : u ++ '"' :: (body ++ ['"']) ++ rest = u ++ '"' :: (body ++ '"' :: rest) := by
      simp
    have quote : isPlain '"' = false := by decide
    rw [whole, takeFragment, List.dropWhile_append_of_pos plain, List.takeWhile_append_of_pos plain,
      List.dropWhile_cons_of_neg (by simp [quote]), List.takeWhile_cons_of_neg (by simp [quote]),
      List.append_nil]
    simp only [taken]

/-- Two fragments are the same where the same text starts with them and they are bounded in it. -/
theorem eq_of_append_eq {ds rest' : List Char} (h : Fragment cs) (h' : Fragment ds)
    (bounds : Bounds rest) (bounds' : Bounds rest') (same : cs ++ rest = ds ++ rest') :
    cs = ds ∧ rest = rest' := by
  have first := h.takeFragment_eq bounds
  have second := h'.takeFragment_eq bounds'
  rw [same, second] at first
  obtain ⟨rfl, rfl⟩ := Prod.mk.inj first
  exact ⟨rfl, rfl⟩

/-- No fragment goes on in an opening parenthesis. -/
theorem ne_append_openParen (h : Fragment cs) (bounds : Bounds rest)
    (plain : ∀ c ∈ u, isPlain c = true) : cs ++ rest ≠ u ++ '(' :: v := by
  intro same
  have paren : isPlain '(' = false := by decide
  have taken : takeFragment (u ++ '(' :: v) = (u, '(' :: v) := by
    rw [takeFragment, List.dropWhile_append_of_pos plain, List.takeWhile_append_of_pos plain,
      List.dropWhile_cons_of_neg (by simp [paren]), List.takeWhile_cons_of_neg (by simp [paren]),
      List.append_nil]
    rfl
  have first := h.takeFragment_eq bounds
  rw [same, taken] at first
  obtain ⟨-, rfl⟩ := Prod.mk.inj first
  rcases bounds '(' rfl with h | h <;> revert h <;> decide

end Fragment

end ContextualQuery
