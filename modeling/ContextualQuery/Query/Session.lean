import ContextualQuery.Query.Reading.Tree

/-! Reading a text as a query, once or several times over.

    A session keeps what a failed reading leaves behind: the tokens it has dropped stay dropped, and
    the nodes it has created stay counted. -/

namespace ContextualQuery

/-- A text in the course of being read. -/
structure Session where
  source : String
  state : Reading.State

namespace Session

/-- Starts to read a text whose words hold the given punctuation. -/
def start (punctuation source : String) : Except Diagnostic Session :=
  match Reading.start (.ofText punctuation source) with
  | .ok state => .ok { source, state }
  | .error fault => .error (fault.diagnostic source)

/-- All of the text is still to be read. -/
theorem eq_of_start {punctuation source : String} {s : Session}
    (started : start punctuation source = .ok s) :
    s = ⟨source, { lexemes := .ofText punctuation source }⟩ := by
  unfold start at started
  split at started
  next begun =>
    obtain rfl := Except.ok.inj started
    rw [Reading.eq_of_start begun]
  next => cases started

/-- Reads a query from what is left of the text. -/
def read (rules : Rules) (s : Session) : Except Diagnostic Query × Session :=
  match (Reading.query rules s.source).run s.state with
  | .ok query state => (.ok query, { s with state })
  | .error fault state => (.error (fault.diagnostic s.source), { s with state })

/-- Reads a number of times. -/
def readTimes (rules : Rules) : Nat → Session → List (Except Diagnostic Query)
  | 0, _ => []
  | times + 1, s =>
    let (result, s) := s.read rules
    result :: readTimes rules times s

end Session

/-- The query that a text is. -/
def parse (rules : Rules) (source : String) : Except Diagnostic Query := do
  let session ← Session.start rules.wordChars source
  (session.read rules).1

end ContextualQuery
