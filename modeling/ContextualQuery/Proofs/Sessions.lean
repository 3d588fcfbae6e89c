import ContextualQuery.Proofs.Arena
import ContextualQuery.Proofs.Numbering
import ContextualQuery.Proofs.Reading.Recasing
import ContextualQuery.Query.Printer
import ContextualQuery.Search.ResultSet
import Mathlib.Data.List.Forall2

/-! Reading a text over and over.

    A reading that is refused leaves tokens dropped and nodes counted, and nothing else. The nodes are
    out of reach for the readings behind it: each ends as it would with none left over, apart from the
    numbers of its nodes, which are raised by as many (`Session.read_eq`). The first query that is
    read clears them away. -/

namespace ContextualQuery

open Reading

variable {rules : Rules} {k : Nat}

/-! ### The case as it is -/

/-- A change that changes no character changes no token. -/
theorem Token.recase_id : Token.recase id = id :=
  funext fun t => by cases t <;> simp [recase]

theorem Modifier.recase_id : Modifier.recase id = id :=
  funext fun m => by
    cases m
    simp [recase]

theorem QualifiedName.recase_id (n : QualifiedName) : n.recase id = n := by
  rw [recase, Text.recase_id, ite_self]

theorem Index.recase_id : Index.recase id = id :=
  funext fun i => by
    rw [recase, QualifiedName.recase_id, Modifier.recase_id, List.map_id]
    rfl

theorem PrefixMap.recase_id (m : PrefixMap) : m.recase id = m :=
  ext_entries (by simp)

theorem recase_id_info (info : NodeInfo) (k : Nat) :
    info.recase id k = { info with id := info.id + k } := by
  rw [NodeInfo.recase, PrefixMap.recase_id, Index.recase_id, List.map_id]

theorem Clause.recase_id (cl : Clause) : cl.recase id = cl := by
  rw [recase, Index.recase_id, Relation.recase, Modifier.recase_id, List.map_id, Term.recase,
    Text.recase_id]
  rfl

theorem Boolean.recase_id (b : Boolean) : b.recase id = b := by
  rw [recase, Modifier.recase_id, List.map_id]

/-- Only the numbers are raised. -/
theorem recase_id_node (t : Node) (k : Nat) : t.recase id k = t.shift k := by
  induction t with
  | clause info cl => rw [Node.recase, recase_id_info, Clause.recase_id, Node.shift]
  | triple info left b right ih ih' =>
    rw [Node.recase, recase_id_info, Boolean.recase_id, ih, ih', Node.shift]

theorem Fault.recase_id (f : Fault) : f.recase id = f := by
  cases f <;> simp [recase, Token.recase_id]

theorem Lexemes.recase_id (l : Lexemes) : l.recase id = l := by
  have quote : Text.recase id = id := funext Text.recase_id
  rw [recase, Token.recase_id, List.map_id, quote, Option.map_id]
  rfl

/-! ### Trees whose numbers are raised -/

/-- The printed tree does not show numbers. -/
theorem Node.textBelow_shift (k : Nat) (t : Node) : (t.shift k).textBelow = t.textBelow := by
  induction t with
  | clause info cl => rfl
  | triple info left b right ih ih' =>
    rw [shift, textBelow, textBelow, ih, ih']
    rfl

theorem Node.text_shift (k : Nat) (t : Node) : (t.shift k).text = t.text := by
  cases t with
  | clause info cl => rfl
  | triple info left b right =>
    rw [shift, text, text, textBelow_shift, textBelow_shift]
    rfl

/-- Nor does the result set depend on them. -/
theorem Node.resultSet?_shift (k : Nat) (t : Node) (s : Scope) :
    (t.shift k).resultSet? s = t.resultSet? s := by
  induction t generalizing s with
  | clause info cl => rfl
  | triple info left b right ih ih' =>
    rw [shift, resultSet?, resultSet?]
    simp only [ih, ih']

/-- A place in a tree all whose numbers are raised by `k`. -/
def Place.shift (k : Nat) (p : Place) : Place where
  node := p.node.shift k
  parent := p.parent.map (· + k)
  around := p.around

/-- A place is raised with the node and the parent that it names. -/
theorem Node.places_shift (k : Nat) (t : Node) (parent : Option Nat) (around : Scope) :
    (t.shift k).places (parent.map (· + k)) around = (t.places parent around).map (Place.shift k) := by
  induction t generalizing parent around with
  | clause info cl => rfl
  | triple info left b right ih ih' =>
    rw [shift, places, places, List.map_cons, List.map_append, ← ih, ← ih']
    rfl

/-- A query all whose numbers are raised, as if `k` nodes had been created in front of its own. -/
def Query.shift (k : Nat) (q : Query) : Query :=
  { q with root := q.root.shift k, size := q.size + k }

/-! ### One reading -/

/-- Nodes that are left over do nothing but raise the numbers. -/
theorem Reading.query_raised (rules : Rules) (source : String) (s : State) (k : Nat) :
    query rules source { s with created := s.created + k } =
      match query rules source s with
      | .ok q t => .ok (q.shift k) t
      | .error f t => .error f { t with created := t.created + k } := by
  have raised (s : State) (k : Nat) : s.recase id k = { s with created := s.created + k } := by
    rw [State.recase, Lexemes.recase_id]
  have moved (q : Query) : q.recase id k = q.shift k := by
    rw [Query.recase, recase_id_node, Text.recase_id]
    rfl
  have outcome := @Recases.query id k recases_id rules source s
  simp only [raised, moved, Fault.recase_id, Text.recase_id, Nat.add_zero] at outcome
  exact outcome

namespace Session

/-- A session in which `k` more nodes are left over. -/
def raise (k : Nat) (s : Session) : Session :=
  { s with state := { s.state with created := s.state.created + k } }

/-- A session in which the same is still to be read and no nodes are left over. -/
def cleared (s : Session) : Session := { s with state := { s.state with created := 0 } }

/-- Raising by what was created undoes the clearing. -/
theorem raise_cleared (s : Session) : s.cleared.raise s.state.created = s := by
  simp [raise, cleared]

/-- A reading with numbers raised before it raises those of its query and leaves the same session
    behind. -/
theorem read_raise (rules : Rules) (k : Nat) (s : Session) :
    (s.raise k).read rules =
      match s.read rules with
      | (.ok q, t) => (.ok (q.shift k), t)
      | (.error d, t) => (.error d, t.raise k) := by
  rw [read, read, EStateM.run, EStateM.run, raise, query_raised]
  cases Reading.query rules s.source s.state <;> rfl

/-- What a reading ends with, given how it would end with no nodes left over. -/
theorem read_eq (rules : Rules) (s : Session) :
    s.read rules =
      match s.cleared.read rules with
      | (.ok q, t) => (.ok (q.shift s.state.created), t)
      | (.error d, t) => (.error d, t.raise s.state.created) := by
  have same := read_raise rules s.state.created s.cleared
  rwa [raise_cleared] at same

/-- Behind a query no nodes are left over, and all that were created in reading it are its own. -/
theorem created_of_read {s t : Session} {q : Query} (read : s.read rules = (.ok q, t)) :
    t.state.created = 0 ∧ q.size = s.state.created + q.root.count := by
  rw [Session.read, EStateM.run, query_eq] at read
  cases run : tree rules s.state with
  | error f r =>
    rw [run] at read
    cases read
  | ok root r =>
    rw [run] at read
    cases read
    obtain ⟨p, rfl, created⟩ := created_of_tree run
    exact ⟨rfl, by rw [count_build, created]⟩

end Session

/-! ### Queries whose numbers are raised -/

/-- Places that differ only in the numbers of the nodes: what names mean is the same at both. -/
structure Place.Raised (k : Nat) (p p' : Place) : Prop where
  id : p.node.id = p'.node.id + k
  parent : p.parent = p'.parent.map (· + k)
  resolve : ∀ name, p.scope.resolve name = p'.scope.resolve name
  contextSet : p.contextSet = p'.contextSet
  resultSet : p.resultSet? = p'.resultSet?

/-- Queries that differ only in the numbers of their nodes. Those of the second are counted from 0
    on, and `k` more nodes have been created in front of those of the first. -/
structure Query.Raised (k : Nat) (q q' : Query) : Prop where
  root : q.root = q'.root.shift k
  size : q.size = k + q'.size
  count : q'.size = q'.root.count
  source : q.source = q'.source
  text : q.text = q'.text
  json : q.json = q'.json
  compile : ∀ names, q.compile names = q'.compile names
  resultSet : q.resultSet? = q'.resultSet?
  places : List.Forall₂ (Place.Raised k) q.places q'.places

/-- Declarations around a place are as they were. -/
theorem Place.raised_shift (k : Nat) (p : Place) : (p.shift k).Raised k p := by
  obtain ⟨t, parent, around⟩ := p
  have scope : Place.scope ⟨t.shift k, parent.map (· + k), around⟩ = Place.scope ⟨t, parent, around⟩ := by
    cases t <;> rfl
  refine ⟨?_, rfl, fun name => congrArg (Scope.resolve · name) scope, ?_, t.resultSet?_shift k around⟩
  · cases t <;> rfl
  · cases t <;> rfl

/-- The whole query, looked at from outside: text, value, compiled forms, places. -/
theorem Query.raised_shift {q : Query} (k : Nat) (count : q.size = q.root.count) :
    (q.shift k).Raised k q where
  root := rfl
  size := Nat.add_comm _ _
  count := count
  source := rfl
  text := q.root.text_shift k
  json := q.root.json_shift k
  compile names := by
    rw [compile, compile]
    exact congrArg (Except.mapError _) (q.root.compile_shift names k q.scope)
  resultSet := q.root.resultSet?_shift k q.scope
  places := by
    have shifted : (q.shift k).places = q.places.map (Place.shift k) := q.root.places_shift k none q.scope
    rw [shifted, List.forall₂_map_left_iff]
    exact List.forall₂_same.2 fun p _ => p.raised_shift k

/-- Outcomes of two readings: both are refused with one report, or both are queries that differ only
    in the numbers of their nodes. -/
inductive SameOutcome (k : Nat) : Except Diagnostic Query → Except Diagnostic Query → Prop
  | refused (d : Diagnostic) : SameOutcome k (.error d) (.error d)
  | read {q q' : Query} (raised : q.Raised k q') : SameOutcome k (.ok q) (.ok q')

/-! ### Any number of readings -/

namespace Session

variable {punctuation source : String} {s : Session}

/-- Left-over nodes change numbers and nothing else. -/
theorem sameOutcome_cleared (rules : Rules) (s : Session) :
    SameOutcome s.state.created (s.read rules).1 (s.cleared.read rules).1 := by
  rw [read_eq]
  cases run : s.cleared.read rules with
  | mk outcome t =>
    cases outcome with
    | error d => exact .refused d
    | ok q =>
      have own := (created_of_read run).2
      rw [cleared, Nat.zero_add] at own
      exact .read (Query.raised_shift _ own)

/-- What a number of readings leave. -/
def after (rules : Rules) (s : Session) : Nat → Session
  | 0 => s
  | times + 1 => ((s.after rules times).read rules).2

/-- Of a number of readings, the nodes that were created in those that were refused after the last
    query was read. -/
def leftover (rules : Rules) (s : Session) : Nat → Nat
  | 0 => 0
  | times + 1 =>
    match (s.after rules times).cleared.read rules with
    | (.ok _, _) => 0
    | (.error _, t) => s.leftover rules times + t.state.created

/-- A reader of the same lexemes with an empty arena, no scope being open. -/
def reader (s : Session) : Reader := { lexemes := s.state.lexemes }

/-- Whether a reader is where a session is. It has as many nodes as the session has counted, and no
    scope is open. -/
structure InStep (s : Session) (r : Reader) : Prop where
  lexemes : r.lexemes = s.state.lexemes
  length : r.arena.nodes.length = s.state.created
  scopes : r.scopes = []
  depth : r.depth = 0

/-- A session reads one text. -/
theorem source_read (rules : Rules) (s : Session) : (s.read rules).2.source = s.source := by
  rw [read]
  cases (query rules s.source).run s.state <;> rfl

theorem source_after (rules : Rules) (s : Session) (times : Nat) :
    (s.after rules times).source = s.source := by
  induction times with
  | zero => rfl
  | succ times ih => rw [after, source_read, ih]

/-- The first of several readings, then the others. -/
theorem after_succ (rules : Rules) (s : Session) (times : Nat) :
    s.after rules (times + 1) = (s.read rules).2.after rules times := by
  induction times with
  | zero => rfl
  | succ times ih => rw [after, ih, after]

/-- The list of outcomes is made of single ones. -/
theorem readTimes_eq (rules : Rules) (s : Session) (times : Nat) :
    readTimes rules times s = (List.range times).map fun i => ((s.after rules i).read rules).1 := by
  induction times generalizing s with
  | zero => rfl
  | succ times ih =>
    change (s.read rules).1 :: readTimes rules times (s.read rules).2 = _
    rw [ih, List.range_succ_eq_map, List.map_cons, List.map_map]
    simp only [Function.comp_def, after_succ]
    rfl

/-- Reading into an arena ends as reading trees does, with all scopes left. -/
theorem InStep.read {r : Reader} (h : s.InStep r) (rules : Rules) :
    StoredAs (r.read rules s.source).1 (s.read rules).1 ∧
      (s.read rules).2.InStep (r.read rules s.source).2 := by
  obtain ⟨lexemes, arena, scopes, depth⟩ := r
  obtain ⟨source, lexemes', created⟩ := s
  obtain ⟨rfl, rfl, rfl, rfl⟩ := h
  have beside := Reader.beside_read rules source lexemes arena
  simp only at beside ⊢
  generalize Reader.read rules source _ = x, Session.read rules _ = y at beside ⊢
  cases beside with
  | read holds => exact ⟨holds.storedAs, rfl, rfl, rfl, rfl⟩
  | refused => exact ⟨.refused _, rfl, rfl, rfl, rfl⟩

/-- By induction on the number of readings: the two are in step behind each. -/
theorem inStep_after (rules : Rules) (clear : s.state.created = 0) (times : Nat) :
    (s.after rules times).InStep (s.reader.after rules s.source times) := by
  induction times with
  | zero => exact ⟨rfl, clear.symm, rfl, rfl⟩
  | succ times ih =>
    have next := (ih.read rules).2
    rwa [source_after] at next

/-- A session starts with an empty arena. -/
theorem created_of_start (started : start punctuation source = .ok s) : s.state.created = 0 := by
  rw [eq_of_start started]

/-- What is left over is what the last refused readings created. -/
theorem created_after (rules : Rules) (clear : s.state.created = 0) (times : Nat) :
    (s.after rules times).state.created = s.leftover rules times := by
  induction times with
  | zero => exact clear
  | succ times ih =>
    rw [after, read_eq, leftover]
    cases run : (s.after rules times).cleared.read rules with
    | mk outcome t =>
      cases outcome with
      | ok q => exact (created_of_read run).1
      | error d => exact (Nat.add_comm _ _).trans (congrArg (· + _) ih)

/-- Whether a session, and the reader that goes along with it, is clean when it has been read from a
    number of times. -/
structure CleanAfter (rules : Rules) (s : Session) (times : Nat) : Prop where
  /-- No scope stays open, and the arena holds the nodes that are counted. -/
  inStep : (s.after rules times).InStep (s.reader.after rules s.source times)
  /-- Left-over nodes make no difference to what the arena says of the next query. -/
  stored : StoredAs ((s.reader.after rules s.source times).read rules s.source).1
    ((s.after rules times).read rules).1
  /-- The nodes that are left over are those of refused readings. -/
  created : (s.after rules times).state.created = s.leftover rules times
  /-- The next reading ends as it would with none left over, but for the numbers. -/
  outcome : SameOutcome (s.leftover rules times) ((s.after rules times).read rules).1
    ((s.after rules times).cleared.read rules).1
  /-- Behind a query none are left over. -/
  emptied : ∀ q, ((s.after rules times).read rules).1 = .ok q →
    (s.after rules (times + 1)).state.created = 0 ∧
      (s.reader.after rules s.source (times + 1)).arena.nodes = []

/-- However often a text has been read from, with whatever outcome, the next reading starts clean;
    what is read in a number of times is what these readings end with. -/
theorem cleanAfter_of_start (started : start punctuation source = .ok s) (rules : Rules)
    (times : Nat) :
    s.CleanAfter rules times ∧
      readTimes rules times s = (List.range times).map fun i => ((s.after rules i).read rules).1 := by
  have clear := created_of_start started
  have along := inStep_after rules clear
  refine ⟨⟨along times, ?_, created_after rules clear times, ?_, fun q read => ?_⟩,
    readTimes_eq rules s times⟩
  · have stored := ((along times).read rules).1
    rwa [source_after] at stored
  · rw [← created_after rules clear]
    exact sameOutcome_cleared rules _
  · have none : (s.after rules (times + 1)).state.created = 0 :=
      (created_of_read (Prod.ext read rfl)).1
    exact ⟨none, List.length_eq_zero_iff.1 ((along (times + 1)).length.trans none)⟩

/-- A refused reading leaves a node, the next one reads a query of one clause. -/
theorem cleanAfter_of_start_refused : ∃ s, start defaultWordChars "a and/\"q\" b c" = .ok s ∧
    ((s.read {}).1.isOk = false ∧ s.leftover {} 1 = 1 ∧ ((s.after {} 1).read {}).1.isOk = true) ∧
      s.CleanAfter {} 1 ∧ readTimes {} 1 s = (List.range 1).map fun i => ((s.after {} i).read {}).1 := by
  have checked : ((start defaultWordChars "a and/\"q\" b c").toOption.any fun s =>
      !(s.read {}).1.isOk && s.leftover {} 1 == 1 && ((s.after {} 1).read {}).1.isOk) = true := by
    decide +kernel
  obtain ⟨s, started, outcomes⟩ := exists_eq_ok_of_any checked
  exact ⟨s, started, by simpa [and_assoc] using outcomes, cleanAfter_of_start started {} 1⟩

end Session

end ContextualQuery
