import ContextualQuery.Proofs.Lexing.Printing

/-! Tokens survive other spacing.

    Where words hold no white space, a token that is not open ends in front of any (`boundary_blank`), so
    tokens are read once more from their own characters, however wide the gaps between them are
    (`lexes_written`). An open word takes a text to its end, hence only the last one can be open. -/

namespace ContextualQuery

namespace Lexemes

open Unicode

variable {punctuation : String} {c : Char} {cs : List Char} {ts : List Token}

/-- Neither letters nor digits are white space. -/
theorem isAlphanumeric_of_isBlank (h : isBlank c = true) : isAlphanumeric c = false := by
  rw [Bool.eq_false_iff]
  intro letter
  exact absurd (opens_of_isAlphanumeric letter).2 (by simp [h])

/-- Every token that is not open ends in front of white space. -/
theorem boundary_blank (plain : ∀ c ∈ punctuation.toList, isBlank c = false) (h : isBlank c = true) :
    Boundary punctuation (c :: cs) := by
  intro d hd
  obtain rfl := Option.some.inj hd
  have ne {d : Char} (other : isBlank d = false) : c ≠ d := by
    rintro rfl
    exact absurd (h.symm.trans other) (by simp)
  refine ⟨ne (by decide), ?_, ne (by decide), ne (by decide)⟩
  rw [isWordChar, isAlphanumeric_of_isBlank h, Bool.false_or, List.contains_eq_mem,
    decide_eq_false_iff_not]
  intro mem
  exact absurd (h.symm.trans (plain c mem)) (by simp)

/-- A text is lexed alike with other gaps between its tokens. -/
theorem lexes_written (plain : ∀ c ∈ punctuation.toList, isBlank c = false)
    (h : Lexes punctuation cs ts) : ∀ {gaps : List (List Char)}, gaps.length = ts.length →
      (∀ gap ∈ gaps, ∀ c ∈ gap, isBlank c = true) → (∀ gap ∈ gaps.tail, gap ≠ []) →
        Lexes punctuation (written gaps ts) ts := by
  induction h with
  | nil _ =>
    intro gaps _ _ _
    rw [written, List.zipWith_nil_right]
    exact .nil (by simp)
  | @cons b u t rest ts _ taken later ih =>
    intro gaps length blank apart
    obtain ⟨gap, gaps, rfl⟩ : ∃ gap rest, gaps = gap :: rest :=
      List.exists_cons_of_length_eq_add_one length
    obtain ⟨here, blank⟩ := List.forall_mem_cons.1 blank
    have behind : Lexes punctuation (written gaps ts) ts :=
      ih (by simpa using length) blank fun gap mem => apart gap (List.mem_of_mem_tail mem)
    -- A gap stands behind every token but the last, and the last one has nothing behind it.
    have again : Takes punctuation u t (written gaps ts) := by
      cases ts with
      | nil =>
        rw [written, List.zipWith_nil_right]
        exact taken.alone
      | cons t' ts =>
        obtain ⟨gap', gaps, rfl⟩ : ∃ gap rest, gaps = gap :: rest :=
          List.exists_cons_of_length_eq_add_one (by simpa using length)
        obtain ⟨c, gap', rfl⟩ := List.exists_cons_of_ne_nil (apart gap' List.mem_cons_self)
        have closed : t.isOpen = false := by
          refine taken.isOpen_eq ?_
          rintro rfl
          exact List.cons_ne_nil _ _ later.eq_nil
        have front : isBlank c = true := blank _ List.mem_cons_self c List.mem_cons_self
        exact taken.alone.append (boundary_blank plain front) fun _ => closed
    have whole : written (gap :: gaps) (t :: ts) = gap ++ (u ++ written gaps ts) := by
      simp [written, taken.text_eq]
    rw [whole]
    exact .cons here again behind

end Lexemes

open Lexemes Unicode

variable {punctuation source : String} {ts : List Token}

/-- The lexemes of a text behind other tokens. -/
def Lexemes.behind (ts : List Token) (l : Lexemes) : Lexemes := { l with tokens := ts ++ l.tokens }

/-- A text is lexed as it is alone behind tokens that white space keeps apart from it. -/
theorem ofText_append (plain : ∀ c ∈ punctuation.toList, isBlank c = false)
    (lexed : Lexes punctuation source.toList ts) (ended : ∀ t ∈ ts.getLast?, t.isOpen = false)
    {space : Char} (blank : isBlank space = true) (more : String) :
    ofText punctuation (source ++ space.toString ++ more) = (ofText punctuation more).behind ts := by
  have whole : (source ++ space.toString ++ more).toList = source.toList ++ space :: more.toList := by
    simp
  obtain ⟨split, opens⟩ := splits_ofText punctuation more
  generalize ofText punctuation more = later at split opens
  obtain ⟨us, quote⟩ := later
  have apart : Splits punctuation (space :: more.toList) us (left ⟨us, quote⟩) :=
    split.blank_append (b := [space]) (by simpa using blank)
  have joined := Splits.append lexed ended (boundary_blank plain blank) apart
  rw [← whole] at joined
  cases quote with
  | none => exact ofText_eq.2 (splits_nil_iff.1 joined)
  | some d =>
    rw [ofText_of_splits joined (opens d rfl), behind]
    simp [left]

/-- The tokens of a text are those of every text that is made of them and of white space between them,
    and they are read in front of every other text from which white space keeps them apart. -/
theorem ofText_spaced (plain : ∀ c ∈ punctuation.toList, isBlank c = false)
    (lexed : ofText punctuation source = { tokens := ts }) :
    (∀ (front : List Char) (gaps : List (List Char)), gaps.length = ts.length →
      (∀ gap ∈ front :: gaps, ∀ c ∈ gap, isBlank c = true) → (∀ gap ∈ gaps.tail, gap ≠ []) →
        ofText punctuation (String.ofList (front ++ written gaps ts)) = { tokens := ts }) ∧
    ((∀ t ∈ ts.getLast?, t.isOpen = false) → ∀ space, isBlank space = true → ∀ more,
      ofText punctuation (source ++ space.toString ++ more) = (ofText punctuation more).behind ts) := by
  have made : Lexes punctuation source.toList ts := ofText_eq.1 lexed
  constructor
  · intro front gaps length blank apart
    obtain ⟨ahead, blank⟩ := List.forall_mem_cons.1 blank
    rw [ofText_eq, String.toList_ofList]
    exact (lexes_written plain made length blank apart).blank_append ahead
  · intro ended space blank more
    exact ofText_append plain made ended blank more

/-- Escaped white space stays in its word, comparisons do not run together, and a quote that is opened
    behind them is left as it is. -/
theorem ofText_spaced_comparisons :
    ofText "=/" "\ta=b\\ c  < = >\n\"(\\\"\"" = { tokens := [.word "a=b\\ c", .comparison .lt,
      .comparison .eq, .comparison .gt, .quoted "\"(\\\"\""] } ∧
    ofText "=/" ("a=b\\ c< = >\"(\\\"\"" ++ ' '.toString ++ "d \"e") =
      { tokens := [.word "a=b\\ c", .comparison .lt, .comparison .eq, .comparison .gt,
          .quoted "\"(\\\"\"", .word "d"]
        unterminated := some "\"e" } := by
  have plain : ∀ c ∈ "=/".toList, isBlank c = false := by simp; decide
  obtain ⟨apart, behind⟩ := @ofText_spaced "=/" "a=b\\ c< = >\"(\\\"\"" [.word "a=b\\ c",
    .comparison .lt, .comparison .eq, .comparison .gt, .quoted "\"(\\\"\""] plain (by decide +kernel)
  constructor
  · exact apart ['\t'] [[], [' ', ' '], [' '], [' '], ['\n']] rfl (by simp; decide) (by decide)
  · exact (behind (by decide) ' ' (by decide) "d \"e").trans (by decide +kernel)

end ContextualQuery
