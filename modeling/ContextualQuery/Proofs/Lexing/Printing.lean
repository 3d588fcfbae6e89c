import ContextualQuery.Boolean
import ContextualQuery.Proofs.Lexing.Characters
import ContextualQuery.Proofs.Lexing.Splitting

/-! Texts that are written from the tokens of another text.

    A token that is not open is read once more from its own characters (`Token.Alone`). Texts that are
    read as given tokens may be put together where the second starts with a space, a slash or a
    closing parenthesis, for no token goes on there (`Prints.append`), provided words hold harmless
    punctuation. -/

namespace ContextualQuery

open Lexemes Unicode

variable {punctuation : String} {cs u rest more : List Char} {t : Token} {ts us vs : List Token}
  {a b : String}

/-! ### Tokens by themselves -/

namespace Lexemes.Takes

/-- A token is taken of its own text, without what stood behind it. -/
theorem alone (h : Takes punctuation u t rest) : Takes punctuation u t [] := by
  cases h with
  | word opens escaped _ => exact .word opens escaped stops_nil
  | openWord opens escaped => exact .openWord opens escaped
  | quoted escaped => exact .quoted escaped
  | openParen => exact .openParen
  | closeParen => exact .closeParen
  | slash => exact .slash
  | eq => exact .eq
  | le => exact .le
  | ne => exact .ne
  | lt _ => exact .lt (by simp)
  | ge => exact .ge
  | gt _ => exact .gt (by simp)
  | symbol opens plain refused => exact .symbol opens plain refused

/-- Only a word at the end of a text may be open. -/
theorem isOpen_eq (h : Takes punctuation u t rest) (some_rest : rest ≠ []) : t.isOpen = false := by
  cases h with
  | word _ escaped _ => simpa [Token.isOpen] using escaped.endsOpen_eq
  | openWord => exact absurd rfl some_rest
  | _ => rfl

end Lexemes.Takes

/-- Whether a token is the start of some text. -/
def Token.Lexed (punctuation : String) (t : Token) : Prop := ∃ u rest, Takes punctuation u t rest

/-- Whether a token is read once more from its own characters, whatever stands behind them. -/
def Token.Alone (punctuation : String) (t : Token) : Prop :=
  Takes punctuation t.text.toList t [] ∧ t.isOpen = false

/-- Whether moreover each character of a token has a lower case of one character. -/
def Token.Sound (punctuation : String) (t : Token) : Prop :=
  t.Alone punctuation ∧ 'İ' ∉ t.text.toList

section

variable [Harmless punctuation]

/-- Any word characters make a word, if no backslash at the end swallows what is printed next. -/
theorem Token.alone_word {s : String} (some_char : s ≠ "")
    (escaped : Escaped (isWordChar punctuation) s.toList) : (Token.word s).Alone punctuation :=
  ⟨takes_word some_char escaped stops_nil, escaped.endsOpen_eq⟩

/-- A word that joins queries is made of letters. -/
theorem Token.alone_of_ofWord? {s : String} {c : Connective} (h : Connective.ofWord? s = some c) :
    (Token.word s).Alone punctuation := by
  have folded : Text.fold s = c.text := by
    have found := List.find?_some h
    exact (beq_iff_eq.1 found).symm
  refine Token.alone_word ?_ (escaped_of_isAlphanumeric fun d hd => ?_)
  · rintro rfl
    revert folded
    cases c <;> decide
  · have small : d.toLower ∈ c.text.toList := by
      rw [← folded, Text.fold, String.toList_ofList]
      exact List.mem_map_of_mem hd
    have letters : c.text.toList.all isAlphanumeric = true := by
      cases c <;> decide
    exact isAlphanumeric_of_toLower (List.all_eq_true.1 letters _ small)

end

@[simp] theorem Text.toList_quote (body : String) :
    (Text.quote body).toList = '"' :: (body.toList ++ ['"']) := by
  simp [Text.quote]

/-- Quotes at both ends and a body between them. -/
theorem Text.eq_quote {s : String} (h : s.toList = '"' :: (cs ++ ['"'])) :
    s = Text.quote (String.ofList cs) := by
  apply String.toList_injective
  rw [h, Text.toList_quote, String.toList_ofList]

@[simp] theorem Text.unquote_quote (body : String) : Text.unquote (Text.quote body) = body := by
  rw [Text.unquote, Text.toList_quote, Text.betweenQuotes?]
  simp

/-- A body whose quotes are all escaped is read back as one quoted text. -/
theorem Token.alone_quoted {body : String} (escaped : Escaped isInside body.toList) :
    (Token.quoted (Text.quote body)).Alone punctuation := by
  have text : Text.quote body = String.ofList ('"' :: (body.toList ++ ['"'])) := by
    rw [← Text.toList_quote, String.ofList_toList]
  refine ⟨?_, rfl⟩
  rw [Token.text, Text.toList_quote, text]
  exact .quoted escaped

/-- A word that is read back by itself is made of word characters and pairs with a backslash. -/
theorem Token.Alone.word {s : String} (h : (Token.word s).Alone punctuation) :
    s ≠ "" ∧ Escaped (isWordChar punctuation) s.toList := by
  obtain ⟨taken, ended⟩ := h
  constructor
  · rintro rfl
    obtain ⟨c, v, chars, -⟩ := taken.head
    simp [text] at chars
  · generalize whole : (Token.word s).text.toList = cs at taken
    cases taken with
    | word _ escaped _ => simpa using escaped
    | openWord _ escaped =>
      have opened := escaped.endsOpen_append ['\\']
      simp [isOpen, opened, endsOpen] at ended

/-- Between the quotes of a token all backslashes are paired, and no other quote is left. -/
theorem Lexemes.Takes.exists_body {s : String} (h : Takes punctuation u (.quoted s) rest) :
    ∃ body : String, s = Text.quote body ∧ Escaped isInside body.toList := by
  cases h with
  | @quoted u _ escaped =>
    exact ⟨String.ofList u, Text.eq_quote String.toList_ofList, by simpa using escaped⟩

/-- A quoted text that is read back by itself has a body between its quotes. -/
theorem Token.Alone.quoted {s : String} (h : (Token.quoted s).Alone punctuation) :
    ∃ body : String, s = Text.quote body ∧ Escaped isInside body.toList :=
  h.1.exists_body

theorem Lexemes.Opens.ne_comparison {c : Char} (h : Opens c) : c ≠ '=' ∧ c ≠ '>' := by
  constructor <;> rintro rfl <;> exact absurd h.1 (by decide)

theorem Token.Alone.lexed (h : t.Alone punctuation) : t.Lexed punctuation := ⟨_, _, h.1⟩

/-- Neither a word nor a quoted text goes on in a comparison in front of it. -/
theorem Token.Lexed.head (h : t.Lexed punctuation) (text : t.isText = true) (more : List Char) :
    ∀ c ∈ (t.text.toList ++ more).head?, c ≠ '=' ∧ c ≠ '>' := by
  obtain ⟨u, rest, taken⟩ := h
  rw [taken.text_eq, String.toList_ofList]
  intro c hc
  cases taken with
  | word opens _ _ =>
    obtain rfl := Option.some.inj hc
    exact opens.ne_comparison
  | @openWord u opens _ =>
    cases u with
    | nil =>
      obtain rfl := Option.some.inj hc
      decide
    | cons d u =>
      obtain rfl := Option.some.inj hc
      exact (opens d rfl).ne_comparison
  | quoted _ =>
    obtain rfl := Option.some.inj hc
    decide
  | _ => cases text

/-- A token by itself is read from its own characters, at the end of a text even an open one. -/
theorem Token.Lexed.lexes (h : t.Lexed punctuation) : Lexes punctuation t.text.toList [t] := by
  obtain ⟨u, rest, taken⟩ := h
  rw [taken.text_eq, String.toList_ofList]
  simpa using Lexes.cons (b := []) (by simp) taken.alone (.nil (by simp))

/-- Tokens are made of one character at least. -/
theorem Token.Lexed.text_ne_empty (h : t.Lexed punctuation) : t.text ≠ "" := by
  obtain ⟨u, rest, taken⟩ := h
  obtain ⟨c, v, rfl, -⟩ := taken.head
  rw [taken.text_eq]
  simp

/-- Whatever is lexed can stand alone, unless a backslash at its end waits for another character. -/
theorem Token.Lexed.alone (h : t.Lexed punctuation) (closed : t.isOpen = false) :
    t.Alone punctuation := by
  obtain ⟨u, rest, taken⟩ := h
  refine ⟨?_, closed⟩
  rw [taken.text_eq, String.toList_ofList]
  exact taken.alone

/-- All tokens of a text are lexed. -/
theorem Lexemes.Lexes.taken (h : Lexes punctuation cs ts) : ∀ t ∈ ts, t.Lexed punctuation :=
  (splits_nil_iff.2 h).taken

/-- All tokens of a text stand by themselves if the last one is not open. -/
theorem Lexemes.Lexes.alone (h : Lexes punctuation cs ts)
    (ended : ∀ t ∈ ts.getLast?, t.isOpen = false) : ∀ t ∈ ts, t.Alone punctuation := by
  induction h with
  | nil blank => simp
  | @cons b u t rest ts blank taken later ih =>
    refine List.forall_mem_cons.2 ⟨Token.Lexed.alone ⟨u, rest, taken⟩ ?_,
      ih fun t' ht' => ended t' ?_⟩
    · cases rest with
      | nil =>
        obtain rfl := later.eq_nil
        exact ended t rfl
      | cons c rest => exact taken.isOpen_eq (List.cons_ne_nil _ _)
    · cases ts with
      | nil => simp at ht'
      | cons t'' ts => rwa [List.getLast?_cons_cons]

/-- The characters of the tokens are characters of the text. -/
theorem Lexemes.Lexes.not_mem_text {c : Char} (h : Lexes punctuation cs ts) (free : c ∉ cs) :
    ∀ t ∈ ts, c ∉ t.text.toList := by
  induction h with
  | nil blank => simp
  | cons blank taken later ih =>
    simp only [List.mem_append, not_or] at free
    refine List.forall_mem_cons.2 ⟨?_, ih free.2.2⟩
    rw [taken.text_eq, String.toList_ofList]
    exact free.2.1

/-- All tokens of a text are sound if the last one is not open. -/
theorem Lexemes.Lexes.sound (h : Lexes punctuation cs ts)
    (ended : ∀ t ∈ ts.getLast?, t.isOpen = false) (dotless : 'İ' ∉ cs) :
    ∀ t ∈ ts, t.Sound punctuation :=
  fun t ht => ⟨h.alone ended t ht, h.not_mem_text dotless t ht⟩

/-! ### Texts -/

/-- Whether a text is read as given tokens, whatever stands behind it that none of them goes on
    in. -/
def Prints (punctuation : String) (text : String) (us : List Token) : Prop :=
  ∀ more ts, Boundary punctuation more → Lexes punctuation more ts →
    Lexes punctuation (text.toList ++ more) (us ++ ts)

section

variable [Harmless punctuation]

theorem isWordChar_eq_false {c : Char} (h : ¬Opens c) : isWordChar punctuation c = false :=
  Bool.eq_false_iff.2 fun word => h (opens_of_isWordChar word)

/-- What starts with a blank, a slash or a closing parenthesis ends a word in front of it. -/
theorem boundary_of_head (h : ∀ c ∈ cs.head?, c ∈ [' ', '/', ')']) : Boundary punctuation cs := by
  intro c hc
  have marks : [' ', '/', ')'].all (fun c =>
      c != '\\' && (isOperator c || isBlank c) && c != '=' && c != '>') = true := by
    decide
  have mark := List.all_eq_true.1 marks c (h c hc)
  simp only [Bool.and_eq_true, bne_iff_ne] at mark
  refine ⟨mark.1.1.1, isWordChar_eq_false ?_, mark.1.2, mark.2⟩
  rintro ⟨operator, blank⟩
  simp [operator, blank] at mark

/-- So does a comparison. -/
theorem Lexemes.stops_comparator (c : Comparator) (rest : List Char) :
    Stops (isWordChar punctuation) (c.text.toList ++ rest) := by
  have first : ∃ d cs, c.text.toList = d :: cs ∧ isOperator d = true := by
    cases c <;> exact ⟨_, _, rfl, by decide⟩
  obtain ⟨d, cs, chars, operator⟩ := first
  rw [chars, List.cons_append, stops_cons]
  refine ⟨?_, isWordChar_eq_false fun opens => by simp [opens.1] at operator⟩
  rintro rfl
  exact absurd operator (by decide)

end

/-- A comparison is taken as a whole, unless `=` or `>` is printed right behind it. -/
theorem Lexemes.takes_comparator (c : Comparator) (h : ∀ d ∈ rest.head?, d ≠ '=' ∧ d ≠ '>') :
    Takes punctuation c.text.toList (.comparison c) rest := by
  cases c with
  | eq => exact .eq
  | gt => exact .gt fun d hd => (h d hd).1
  | ge => exact .ge
  | lt => exact .lt h
  | le => exact .le
  | ne => exact .ne

theorem Lexemes.Takes.lexes (taken : Takes punctuation u t rest) (later : Lexes punctuation rest ts) :
    Lexes punctuation (u ++ rest) (t :: ts) :=
  .cons (b := []) (by simp) taken later

/-- The text of a token prints the token. -/
theorem Token.Alone.prints (h : t.Alone punctuation) : Prints punctuation t.text [t] := by
  intro more ts boundary later
  exact (h.1.append boundary fun _ => h.2).lexes later

namespace Prints

theorem nil : Prints punctuation "" [] := fun _ _ _ later => by simpa using later

theorem closeParen : Prints punctuation ")" [.closeParen] :=
  fun _ _ _ later => Takes.closeParen.lexes later

theorem lexes (h : Prints punctuation a us) : Lexes punctuation a.toList us := by
  simpa using h [] [] (by simp [Boundary]) (.nil (by simp))

theorem space (h : Prints punctuation a us) : Prints punctuation (" " ++ a) us := by
  intro more ts boundary later
  rw [String.toList_append, List.append_assoc]
  exact (h _ _ boundary later).blank_append (List.all_eq_true.1 (by decide))

variable [Harmless punctuation]

/-- Two texts with no blank between them, if the second one starts with a sign that ends a word. -/
theorem append (ha : Prints punctuation a us) (hb : Prints punctuation b vs)
    (head : ∀ c ∈ b.toList.head?, c ∈ [' ', '/', ')']) : Prints punctuation (a ++ b) (us ++ vs) := by
  intro more ts boundary later
  rw [String.toList_append, List.append_assoc, List.append_assoc]
  refine ha _ _ ?_ (hb _ _ boundary later)
  cases chars : b.toList with
  | nil => exact boundary
  | cons c cs => exact boundary_of_head (by simpa [chars] using head)

/-- Two texts with a blank between them. -/
theorem spaced (ha : Prints punctuation a us) (hb : Prints punctuation b vs) :
    Prints punctuation (a ++ " " ++ b) (us ++ vs) := by
  rw [String.append_assoc]
  exact ha.append hb.space (by simp)

/-- A text behind another one keeps its tokens where none goes on in it. -/
theorem lexes_append (h : Prints punctuation a us) (later : Lexes punctuation b.toList ts)
    (head : ∀ c ∈ b.toList.head?, c ∈ [' ', '/', ')']) :
    Lexes punctuation (a ++ b).toList (us ++ ts) := by
  rw [String.toList_append]
  exact h _ _ (boundary_of_head head) later

/-- What is printed in front of a blank is read back in front of the rest. -/
theorem lexes_spaced (h : Prints punctuation a us) (later : Lexes punctuation b.toList ts) :
    Lexes punctuation (a ++ " " ++ b).toList (us ++ ts) := by
  have blank : ∀ c ∈ [' '], isBlank c = true := List.all_eq_true.1 (by decide)
  rw [String.append_assoc]
  refine h.lexes_append ?_ (by simp)
  rw [String.toList_append]
  exact later.blank_append blank

/-- A text in parentheses. -/
theorem parens (h : Prints punctuation a us) :
    Prints punctuation ("(" ++ a ++ ")") (.openParen :: (us ++ [.closeParen])) := by
  intro more ts boundary later
  rw [String.append_assoc, String.toList_append, List.append_assoc]
  exact Takes.openParen.lexes (h.append closeParen (by simp) _ _ boundary later)

/-- Texts with blanks between them, as keys and declarations are printed. -/
theorem intercalate {texts : List String} {uss : List (List Token)}
    (h : List.Forall₂ (Prints punctuation) texts uss) :
    Prints punctuation (" ".intercalate texts) uss.flatten := by
  induction h with
  | nil => exact nil
  | @cons a us texts uss first rest ih =>
    cases rest with
    | nil => simpa using first
    | cons second rest =>
      rw [String.intercalate_cons_cons]
      exact first.spaced ih

end Prints

theorem Lexemes.Lexes.prints (h : Lexes punctuation a.toList us)
    (ended : ∀ t ∈ us.getLast?, t.isOpen = false) : Prints punctuation a us :=
  fun _ _ boundary later => h.append ended boundary later

/-! ### Declarations -/

/-- A declaration without a name. -/
theorem prints_unnamed {i : String} (inside : Escaped isInside i.toList) :
    Prints punctuation (">" ++ Text.quote i) [.comparison .gt, .quoted (Text.quote i)] := by
  intro more ts boundary later
  have quoted : (Token.quoted (Text.quote i)).Alone punctuation := Token.alone_quoted inside
  have identifier := quoted.prints _ _ boundary later
  have greater := (takes_comparator .gt (quoted.lexed.head rfl more)).lexes identifier
  simpa [Comparator.text, Token.text] using greater

variable [Harmless punctuation]

/-- A declaration with a name, whose identifier does not go on in the equals sign in front of it. -/
theorem Prints.named {n i : String} (h : Prints punctuation i us)
    (name : (Token.word n).Alone punctuation)
    (head : ∀ more, ∀ c ∈ (i.toList ++ more).head?, c ≠ '=' ∧ c ≠ '>') :
    Prints punctuation (">" ++ n ++ "=" ++ i)
      (.comparison .gt :: .word n :: .comparison .eq :: us) := by
  intro more ts boundary later
  obtain ⟨some_char, escaped⟩ := name.word
  have equals := (takes_comparator .eq (head more)).lexes (h _ _ boundary later)
  have named := (takes_word some_char escaped (stops_comparator .eq _)).lexes equals
  have greater := (takes_comparator .gt (name.lexed.head rfl _)).lexes named
  simpa [Comparator.text, Token.text] using greater

/-- A declaration `>n="i"` is four tokens. -/
theorem prints_named {n i : String} (name : (Token.word n).Alone punctuation)
    (inside : Escaped isInside i.toList) :
    Prints punctuation (">" ++ n ++ "=" ++ Text.quote i)
      [.comparison .gt, .word n, .comparison .eq, .quoted (Text.quote i)] :=
  have quoted := Token.alone_quoted inside
  quoted.prints.named name (quoted.lexed.head rfl)

end ContextualQuery
