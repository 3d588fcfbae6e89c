import ContextualQuery.Token
import ContextualQuery.WordChars
import ContextualQuery.Unicode.Blank

/-! From the characters of a query to its tokens.

    White space separates tokens and is otherwise dropped. A backslash and the character behind it
    stay together, inside words and inside quotes; whether the pair means anything is not decided
    here. The only text that is no token is a quote that is opened and never closed. Taking a word or
    a quoted text loses nothing (`takeWord_append`, `takeQuoted_append`). -/

namespace ContextualQuery

/-- The tokens of a text, and the text of a quote that is opened behind them and never closed. -/
structure Lexemes where
  tokens : List Token
  unterminated : Option String := none
  deriving DecidableEq

namespace Lexemes

/-- The characters of the word at the start of a text, and what follows it. -/
def takeWord (admits : Char → Bool) : List Char → List Char × List Char
  | [] => ([], [])
  | '\\' :: c :: rest =>
    let (word, left) := takeWord admits rest
    ('\\' :: c :: word, left)
  | c :: rest =>
    if c = '\\' || admits c then
      let (word, left) := takeWord admits rest
      (c :: word, left)
    else ([], c :: rest)

/-- Nothing is lost in taking a word. -/
theorem takeWord_append (admits : Char → Bool) (cs : List Char) :
    (takeWord admits cs).1 ++ (takeWord admits cs).2 = cs := by
  fun_induction takeWord admits cs <;> simp_all

/-- What stands before the closing quote, the quote included, and what follows it. -/
def takeQuoted : List Char → Option (List Char × List Char)
  | [] => none
  | '"' :: rest => some (['"'], rest)
  | '\\' :: c :: rest => (takeQuoted rest).map fun (body, left) => ('\\' :: c :: body, left)
  | c :: rest => (takeQuoted rest).map fun (body, left) => (c :: body, left)

/-- Nothing is lost in taking a quoted text. -/
theorem takeQuoted_append {cs body rest : List Char} (h : takeQuoted cs = some (body, rest)) :
    body ++ rest = cs := by
  fun_induction takeQuoted cs generalizing body rest with
  | case1 => simp at h
  | case2 left =>
    obtain ⟨rfl, rfl⟩ := Prod.mk.inj (Option.some.inj h)
    rfl
  | case3 c left ih =>
    obtain ⟨⟨b, r⟩, taken, equal⟩ := Option.map_eq_some_iff.1 h
    obtain ⟨rfl, rfl⟩ := Prod.mk.inj equal
    rw [← ih taken, List.cons_append, List.cons_append]
  | case4 c left _ _ ih =>
    obtain ⟨⟨b, r⟩, taken, equal⟩ := Option.map_eq_some_iff.1 h
    obtain ⟨rfl, rfl⟩ := Prod.mk.inj equal
    rw [← ih taken, List.cons_append]

/-- What a text starts with. -/
inductive Start where
  | token (token : Token) (rest : List Char)
  | unterminated (text : List Char)
  | nothing

/-- Reads the first token of a text behind the white space in front of it. -/
def start (punctuation : String) (cs : List Char) : Start :=
  match cs.dropWhile Unicode.isBlank with
  | [] => .nothing
  | '"' :: rest =>
    match takeQuoted rest with
    | some (body, left) => .token (.quoted (String.ofList ('"' :: body))) left
    | none => .unterminated ('"' :: rest)
  | '(' :: rest => .token .openParen rest
  | ')' :: rest => .token .closeParen rest
  | '/' :: rest => .token .slash rest
  | '=' :: rest => .token (.comparison .eq) rest
  | '<' :: '=' :: rest => .token (.comparison .le) rest
  | '<' :: '>' :: rest => .token (.comparison .ne) rest
  | '<' :: rest => .token (.comparison .lt) rest
  | '>' :: '=' :: rest => .token (.comparison .ge) rest
  | '>' :: rest => .token (.comparison .gt) rest
  | c :: rest =>
    if c = '\\' || isWordChar punctuation c then
      let (word, left) := takeWord (isWordChar punctuation) (c :: rest)
      .token (.word (String.ofList word)) left
    else .token (.symbol c) rest

/-- The lexemes of a text with at most `count` tokens. -/
def upTo (punctuation : String) : Nat → List Char → Lexemes
  | 0, _ => { tokens := [] }
  | count + 1, cs =>
    match start punctuation cs with
    | .nothing => { tokens := [] }
    | .unterminated text => { tokens := [], unterminated := some (String.ofList text) }
    | .token t rest =>
      let later := upTo punctuation count rest
      { later with tokens := t :: later.tokens }

/-- The lexemes of a text. Each token takes a character at least, so the length bounds them. An
    unclosed quote takes one too, so it is never cut off. -/
def ofText (punctuation source : String) : Lexemes :=
  upTo punctuation source.toList.length source.toList

/-- The token to be read now. -/
def current (l : Lexemes) : Option Token := l.tokens.head?

/-- The token behind the current one. -/
def following (l : Lexemes) : Option Token := l.tokens[1]?

end Lexemes

end ContextualQuery
