import ContextualQuery.Lexemes
import ContextualQuery.Query.Fault

/-! Lexing a text call by call.

    A lexer keeps its place in a text and goes on character by character. It looks at a character
    before it goes past it, so it stays inside the text. Every call goes past the white space in front
    of it and past one token. At the end of the text it gives none, and so does every later call. -/

namespace ContextualQuery

/-- A text in the course of being lexed, and how many of its characters have been passed. -/
structure Lexer where
  punctuation : String
  source : String
  position : Nat := 0

namespace Lexer

/-- The character `offset` places behind the place of the lexer. -/
def peek? (l : Lexer) (offset : Nat) : Option Char := l.source.toList[l.position + offset]?

/-- The character to be read now. -/
def current? (l : Lexer) : Option Char := l.peek? 0

/-- The lexer behind one more character. -/
def advance (l : Lexer) : Lexer := { l with position := l.position + 1 }

/-- Going past a character that is there comes closer to the end. -/
theorem length_sub_advance_lt {l : Lexer} {c : Char} (found : l.current? = some c) :
    l.source.toList.length - l.advance.position < l.source.toList.length - l.position := by
  obtain ⟨inside, -⟩ := List.getElem?_eq_some_iff.1 found
  exact Nat.sub_succ_lt_self _ _ inside

/-- Goes past white space. -/
def skipBlanks (l : Lexer) : Lexer :=
  match _found : l.current? with
  | some c => if Unicode.isBlank c then l.advance.skipBlanks else l
  | none => l
termination_by l.source.toList.length - l.position
decreasing_by exact length_sub_advance_lt _found

/-- Reads the rest of a word whose beginning is given. A backslash is kept together with the character
    behind it. -/
def readWord (l : Lexer) (word : String) : String × Lexer :=
  match _found : l.current? with
  | some c =>
    if c = '\\' then
      match _escaped : l.advance.current? with
      | some c' => l.advance.advance.readWord ((word.push c).push c')
      | none => (word.push c, l.advance)
    else if isWordChar l.punctuation c then l.advance.readWord (word.push c)
    else (word, l)
  | none => (word, l)
termination_by l.source.toList.length - l.position
decreasing_by
  · exact Nat.lt_trans (length_sub_advance_lt _escaped) (length_sub_advance_lt _found)
  · exact length_sub_advance_lt _found

/-- Reads the rest of a quoted text, the closing quote included. It fails at the end of the text. -/
def readQuoted (l : Lexer) (text : String) : Except Diagnostic String × Lexer :=
  match _found : l.current? with
  | some '"' => (.ok (text.push '"'), l.advance)
  | some '\\' =>
    match _escaped : l.advance.current? with
    | some c => l.advance.advance.readQuoted ((text.push '\\').push c)
    | none => (.error ((Fault.unterminated (text.push '\\')).diagnostic l.source), l.advance)
  | some c => l.advance.readQuoted (text.push c)
  | none => (.error ((Fault.unterminated text).diagnostic l.source), l)
termination_by l.source.toList.length - l.position
decreasing_by
  · exact Nat.lt_trans (length_sub_advance_lt _escaped) (length_sub_advance_lt _found)
  · exact length_sub_advance_lt _found

/-- A token of one character. -/
def single (l : Lexer) (t : Token) : Except Diagnostic (Option Token) × Lexer := (.ok (some t), l.advance)

/-- A token of two characters. -/
def pair (l : Lexer) (t : Token) : Except Diagnostic (Option Token) × Lexer :=
  (.ok (some t), l.advance.advance)

/-- Reads the token that the text goes on with, none at its end. A quote that is never closed goes on
    to the end of the text. -/
def token (l : Lexer) : Except Diagnostic (Option Token) × Lexer :=
  match l.current? with
  | none => (.ok none, l)
  | some '"' =>
    let (result, l) := l.advance.readQuoted "\""
    (result.map fun text => some (.quoted text), l)
  | some '(' => l.single .openParen
  | some ')' => l.single .closeParen
  | some '/' => l.single .slash
  | some '=' => l.single (.comparison .eq)
  | some '<' =>
    match l.peek? 1 with
    | some '=' => l.pair (.comparison .le)
    | some '>' => l.pair (.comparison .ne)
    | _ => l.single (.comparison .lt)
  | some '>' =>
    match l.peek? 1 with
    | some '=' => l.pair (.comparison .ge)
    | _ => l.single (.comparison .gt)
  | some c =>
    if c = '\\' || isWordChar l.punctuation c then
      let (word, l) := l.readWord ""
      (.ok (some (.word word)), l)
    else l.single (.symbol c)

/-- The next token and the lexer behind it. -/
def next (l : Lexer) : Except Diagnostic (Option Token) × Lexer := l.skipBlanks.token

/-- The lexer behind a number of calls. -/
def after (l : Lexer) : Nat → Lexer
  | 0 => l
  | calls + 1 => (l.after calls).next.2

/-- What a call gives, given the number of calls before it. -/
def answer (l : Lexer) (calls : Nat) : Except Diagnostic (Option Token) := (l.after calls).next.1

end Lexer

end ContextualQuery
