import ContextualQuery.Proofs.WellFormed

/-! Backslashes in terms.

    In words and in quoted texts the lexer keeps a backslash together with the character behind it. The
    check of terms sees a quoted term only after its escaped quotes have been replaced, and pairs the
    backslashes of what is left anew. Still it judges the pairs of the lexer, since no pair reaches
    across an escaped quote (`escapesAreSpecial_iff`, `escapesAreSpecial_unescapeQuotes`).

            "  a  \\  \"  b  \*  "        held between the quotes:  \  "  *
               a  \\   "  b  \*           held when it is checked:  \     *   -/

namespace ContextualQuery

open Lexemes Reading

variable {rules : Rules} {cs u rest : List Char} {t : Token}

/-! ### Pairs -/

/-- What the backslashes of a text hold, each paired with the character behind it from left to right:
    nothing where no character is left for the last one. -/
def heldChars : List Char → List (Option Char)
  | '\\' :: c :: rest => some c :: heldChars rest
  | ['\\'] => [none]
  | _ :: rest => heldChars rest
  | [] => []

/-- The characters that have a meaning in terms unless a backslash holds them. -/
def specialChars : List Char := ['?', '\\', '*', '^']

theorem heldChars_cons {c : Char} (plain : c ≠ '\\') (cs : List Char) :
    heldChars (c :: cs) = heldChars cs := by
  rw [heldChars.eq_3 _ _ (by simp [plain]) (by simp [plain])]

/-- Where the lexer has paired all backslashes, each of them holds a character. -/
theorem none_not_mem_heldChars {admits : Char → Bool} (h : Escaped admits cs) :
    none ∉ heldChars cs := by
  induction h with
  | nil => simp [heldChars]
  | pair _ ih => simpa [heldChars] using ih
  | char plain _ _ ih => rwa [heldChars_cons plain]

/-- The check of a text is one of what its backslashes hold. -/
theorem escapesAreSpecial_iff : escapesAreSpecial cs = true ↔
    ∀ held ∈ heldChars cs, ∃ c ∈ specialChars, held = some c := by
  fun_induction heldChars cs with
  | case1 c cs ih =>
    rw [escapesAreSpecial, Bool.and_eq_true, ih, List.forall_mem_cons]
    simp [specialChars]
  | case2 => simp [escapesAreSpecial]
  | case3 c cs single pair ih =>
    have plain : c ≠ '\\' := by
      rintro rfl
      cases cs with
      | nil => exact pair rfl rfl
      | cons d cs => exact single d cs rfl rfl
    rw [escapesAreSpecial_cons plain, ih]
  | case4 => simp [escapesAreSpecial]

theorem unescapeQuotes_cons {c : Char} (plain : c ≠ '\\') (cs : List Char) :
    unescapeQuotes (c :: cs) = c :: unescapeQuotes cs := by
  rw [unescapeQuotes.eq_2 _ _ (by simp [plain])]

theorem unescapeQuotes_pair {c : Char} (other : c ≠ '"') (later : cs.head? ≠ some '"') :
    unescapeQuotes ('\\' :: c :: cs) = '\\' :: c :: unescapeQuotes cs := by
  rw [unescapeQuotes.eq_2 _ _ (by simp [other])]
  refine congrArg ('\\' :: ·) (unescapeQuotes.eq_2 _ _ ?_)
  rintro rest rfl rfl
  exact later rfl

theorem unescapeQuotes_eq_nil (h : unescapeQuotes cs = []) : cs = [] := by
  unfold unescapeQuotes at h
  split at h
  · contradiction
  · contradiction
  · rfl

/-- Where escaped quotes have been replaced, the check is still one of what the backslashes held before:
    a quote was no less welcome than a special character. -/
theorem escapesAreSpecial_unescapeQuotes (h : Escaped isInside cs) :
    escapesAreSpecial (unescapeQuotes cs) = true ↔
      ∀ held ∈ heldChars cs, ∃ c ∈ '"' :: specialChars, held = some c := by
  induction h with
  | nil => simp [unescapeQuotes, escapesAreSpecial, heldChars]
  | @pair c cs rest ih =>
    rw [heldChars, List.forall_mem_cons, ← ih]
    by_cases quote : c = '"'
    · subst quote
      rw [unescapeQuotes, escapesAreSpecial_cons (by decide)]
      simp
    · have later : cs.head? ≠ some '"' := by
        cases rest with
        | nil | pair _ => simp
        | char _ inside _ => simpa [isInside] using inside
      rw [unescapeQuotes_pair quote later, escapesAreSpecial, Bool.and_eq_true]
      simp [specialChars, quote]
  | char plain _ _ ih =>
    rw [unescapeQuotes_cons plain, escapesAreSpecial_cons plain, heldChars_cons plain, ih]

/-! ### Tokens -/

/-- What the backslashes of a term hold, between its quotes if it has any. -/
def Token.held : Token → List (Option Char)
  | .quoted s => heldChars (Text.unquote s).toList
  | t => heldChars t.text.toList

/-- The characters that a backslash may hold in a term. -/
def Token.holdable : Token → List Char
  | .quoted _ => '"' :: specialChars
  | _ => specialChars

/-- Whether every backslash of a term holds a character that it may hold. -/
def Token.WellEscaped (t : Token) : Prop := ∀ held ∈ t.held, ∃ c ∈ t.holdable, held = some c

instance (t : Token) : Decidable t.WellEscaped :=
  decidable_of_iff (∀ held ∈ t.held, held ∈ t.holdable.map some)
    (by simp [Token.WellEscaped, eq_comm])

/-- The text that the backslashes of a term are looked for in: without its quotes, and with what is
    left of escaped quotes. -/
def Token.searched : Token → String
  | .quoted s => String.ofList (unescapeQuotes (Text.unquote s).toList)
  | t => t.text

theorem termOf_text (text : t.isText = true) :
    termOf rules (some t) = checkTerm rules t.text t.searched := by
  match t, text with
  | .word s, _ | .quoted s, _ => rfl

/-- Of a term that has more than anchors in it, and a text where one is asked for, the backslashes
    are all that counts. -/
theorem checkTerm_eq {raw inner : String} (more : ∃ c ∈ raw.toList, c ≠ '^')
    (some_text : rules.rejectEmptyTerm = true → inner ≠ "") :
    checkTerm rules raw inner =
      if escapesAreSpecial inner.toList then .ok ⟨raw⟩ else .error (.badEscape inner) := by
  rw [checkTerm, if_neg (by simpa using more), if_neg (by simpa [and_comm] using some_text)]

namespace Token.Lexed

variable {punctuation : String}

theorem quoted {s : String} (h : (Token.quoted s).Lexed punctuation) :
    ∃ body : String, s = Text.quote body ∧ Escaped isInside body.toList :=
  let ⟨_, _, taken⟩ := h
  taken.exists_body

theorem escapesAreSpecial_searched (h : t.Lexed punctuation) (text : t.isText = true) :
    escapesAreSpecial t.searched.toList = true ↔ t.WellEscaped := by
  match t, text with
  | .word s, _ => exact escapesAreSpecial_iff
  | .quoted s, _ =>
    obtain ⟨body, rfl, escaped⟩ := h.quoted
    rw [searched, WellEscaped, held, Text.unquote_quote, String.toList_ofList]
    exact escapesAreSpecial_unescapeQuotes escaped

theorem none_not_mem_held {s : String} (h : (Token.quoted s).Lexed punctuation) :
    none ∉ (Token.quoted s).held := by
  obtain ⟨body, rfl, escaped⟩ := h.quoted
  rw [held, Text.unquote_quote]
  exact none_not_mem_heldChars escaped

theorem searched_ne_empty (h : t.Lexed punctuation) (some_text : t ≠ .quoted "\"\"") :
    t.searched ≠ "" := by
  match t with
  | .quoted s =>
    obtain ⟨body, rfl, escaped⟩ := h.quoted
    rw [searched, Text.unquote_quote]
    intro none
    have empty : body.toList = [] := unescapeQuotes_eq_nil (String.ofList_injective none)
    rw [String.toList_eq_nil_iff.1 empty] at some_text
    exact some_text rfl
  | .word s | .openParen | .closeParen | .slash | .comparison c | .symbol c =>
    exact h.text_ne_empty

end Token.Lexed

/-- The check of terms agrees with the lexer. A word or a quoted text that has more than anchors in it,
    and some text where the rules ask for one, is a term exactly if each of its backslashes, as the
    lexer pairs them, holds one of the special characters, or a quote between quotes. It is kept as it
    is written. Otherwise it is refused for what its backslashes hold. Only a word may end with a
    backslash that holds nothing. -/
theorem termOf_of_lexed {punctuation source : String}
    (lexed : t ∈ (ofText punctuation source).tokens) (text : t.isText = true)
    (more : ∃ c ∈ t.text.toList, c ≠ '^')
    (some_text : rules.rejectEmptyTerm = true → t ≠ .quoted "\"\"") :
    ((∃ term, termOf rules (some t) = .ok term) ↔ t.WellEscaped) ∧
    (∀ term, termOf rules (some t) = .ok term → term.text = t.text) ∧
    (¬t.WellEscaped → ∃ fault, termOf rules (some t) = .error fault ∧ fault.code.number = 26) ∧
    ∀ s, t = .quoted s → none ∉ t.held := by
  have lexed : t.Lexed punctuation := (splits_ofText punctuation source).1.taken t lexed
  have checked : termOf rules (some t) =
      if t.WellEscaped then .ok ⟨t.text⟩ else .error (.badEscape t.searched) := by
    rw [termOf_text text, checkTerm_eq more fun strict => lexed.searched_ne_empty (some_text strict)]
    simp only [lexed.escapesAreSpecial_searched text]
  have paired : ∀ s, t = .quoted s → none ∉ t.held := by
    rintro s rfl
    exact lexed.none_not_mem_held
  rw [checked]
  split
  next sound =>
    refine ⟨iff_of_true ⟨_, rfl⟩ sound, ?_, fun unsound => absurd sound unsound, paired⟩
    rintro _ ⟨⟩
    rfl
  next unsound =>
    refine ⟨iff_of_false ?_ unsound, ?_, fun _ => ⟨_, rfl, rfl⟩, paired⟩
    · rintro ⟨_, ⟨⟩⟩
    · rintro _ ⟨⟩

/-- A quote behind two backslashes that hold one another is held by the third. -/
theorem termOf_of_lexed_quotes :
    (∃ term, termOf .strict (some (.quoted "\"\\\\\\\"\\*\"")) = .ok term) ∧
    ∃ fault, termOf .strict (some (.word "\\\\\\\"\\*")) = .error fault ∧ fault.code.number = 26 := by
  have tokens : (ofText defaultWordChars "\"\\\\\\\"\\*\" \\\\\\\"\\*").tokens =
      [.quoted "\"\\\\\\\"\\*\"", .word "\\\\\\\"\\*"] := by
    decide +kernel
  have lexed (t : Token) (mem : t ∈ [.quoted "\"\\\\\\\"\\*\"", .word "\\\\\\\"\\*"]) :
      t ∈ (ofText defaultWordChars "\"\\\\\\\"\\*\" \\\\\\\"\\*").tokens := tokens ▸ mem
  obtain ⟨accepted, -⟩ := @termOf_of_lexed .strict _ _ _
    (lexed (.quoted "\"\\\\\\\"\\*\"") (by simp)) rfl ⟨'"', by simp [Token.text], by decide⟩ (by decide)
  obtain ⟨-, -, refused, -⟩ := @termOf_of_lexed .strict _ _ _
    (lexed (.word "\\\\\\\"\\*") (by simp)) rfl ⟨'"', by simp [Token.text], by decide⟩ (by decide)
  exact ⟨accepted.2 (by decide), refused (by decide)⟩

end ContextualQuery
