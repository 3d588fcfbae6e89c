import ContextualQuery.Proofs.WellFormed

/-! Whether a query can be compiled depends on its tree alone.

    What is wrong with a node is seen from the node: sort keys, proximity and the modifiers of its
    boolean, or the modifiers and the name of its relation (`Node.refusals`). A query is refused for the
    first thing that is wrong with the first node of which that can be said, where a node comes before
    those below it and its left operand before the right one. Neither the names of fields nor the scope
    has a say in it. -/

namespace ContextualQuery

open Lexemes Reading

/-! ### What is wrong with a node -/

/-- Sort keys are refused all at once. -/
def NodeInfo.refusals (info : NodeInfo) : List Refusal :=
  if info.sortKeys.isEmpty then [] else [.sorting (" ".intercalate (info.sortKeys.map Index.text))]

def Boolean.refusals (b : Boolean) : List Refusal :=
  (if b.connective = .prox then [.proximity b.connective.text] else []) ++
    if b.modifiers.isEmpty then [] else [.modified b.text]

def Relation.refusals (r : Relation) : List Refusal :=
  (if r.modifiers.isEmpty then [] else [.modified r.text]) ++
    match r.kind with
    | .named _ => [.relation r.text]
    | _ => []

/-- What is wrong with a node itself, that which is reported first in front. -/
def Node.refusals : Node → List Refusal
  | .clause info c => info.refusals ++ c.relation.refusals
  | .triple info _ b _ => info.refusals ++ b.refusals

/-- Whether a node itself stands in the way of a search string. -/
def Node.Offends : Node → Prop
  | .clause info c =>
    info.sortKeys ≠ [] ∨ c.relation.modifiers ≠ [] ∨ ∃ name, c.relation.kind = .named name
  | .triple info _ b _ => info.sortKeys ≠ [] ∨ b.connective = .prox ∨ b.modifiers ≠ []

/-- What is reported of a tree whose nodes are these. -/
def firstRefusal (places : List Place) : Option Refusal :=
  places.findSome? fun place => place.node.refusals.head?

theorem NodeInfo.refusals_eq_nil {info : NodeInfo} : info.refusals = [] ↔ info.sortKeys = [] := by
  rw [refusals]
  cases info.sortKeys <;> simp

theorem Boolean.refusals_eq_nil {b : Boolean} :
    b.refusals = [] ↔ b.connective ≠ .prox ∧ b.modifiers = [] := by
  rw [refusals]
  cases b.modifiers <;> simp

theorem Relation.refusals_eq_nil {r : Relation} :
    r.refusals = [] ↔ r.modifiers = [] ∧ ∀ name, r.kind ≠ .named name := by
  rw [refusals]
  cases r.modifiers <;> cases r.kind <;> simp

theorem Node.refusals_eq_nil {n : Node} : n.refusals = [] ↔ ¬n.Offends := by
  cases n with
  | clause info c =>
    simp [refusals, Offends, NodeInfo.refusals_eq_nil, Relation.refusals_eq_nil]
  | triple info l b r =>
    simp [refusals, Offends, NodeInfo.refusals_eq_nil, Boolean.refusals_eq_nil]

/-- What is wrong with a node is reported with descending numbers. -/
theorem Node.pairwise_refusals (n : Node) :
    n.refusals.Pairwise fun r r' => r'.code.number < r.code.number := by
  cases n with
  | clause info c =>
    rw [refusals, NodeInfo.refusals, Relation.refusals]
    cases info.sortKeys <;> cases c.relation.modifiers <;> cases c.relation.kind <;>
      simp [Refusal.code, DiagnosticCode.number]
  | triple info l b r =>
    rw [refusals, NodeInfo.refusals, Boolean.refusals]
    cases info.sortKeys <;> cases b.modifiers <;> cases b.connective <;>
      simp [Refusal.code, DiagnosticCode.number]

theorem head?_refusals_eq_none {n : Node} : n.refusals.head? = none ↔ ¬n.Offends := by
  rw [List.head?_eq_none_iff, Node.refusals_eq_nil]

theorem firstRefusal_eq_none {places : List Place} :
    firstRefusal places = none ↔ ∀ place ∈ places, ¬place.node.Offends := by
  rw [firstRefusal, List.findSome?_eq_none_iff]
  exact forall₂_congr fun _ _ => head?_refusals_eq_none

theorem firstRefusal_eq_some {places : List Place} {r : Refusal} :
    firstRefusal places = some r ↔ ∃ before place after others, places = before ++ place :: after ∧
      (∀ earlier ∈ before, ¬earlier.node.Offends) ∧ place.node.refusals = r :: others := by
  rw [firstRefusal, List.findSome?_eq_some_iff]
  constructor
  · rintro ⟨before, place, after, split, here, sound⟩
    obtain ⟨others, refusals⟩ := List.head?_eq_some_iff.1 here
    exact ⟨before, place, after, others, split,
      fun earlier mem => head?_refusals_eq_none.1 (sound earlier mem), refusals⟩
  · rintro ⟨before, place, after, others, split, sound, refusals⟩
    exact ⟨before, place, after, split, by rw [refusals, List.head?_cons],
      fun earlier mem => head?_refusals_eq_none.2 (sound earlier mem)⟩

/-! ### Refused or not -/

/-- Whether a result is the first refusal, or a text where nothing is refused. -/
def Decides (first : Option Refusal) (result : Except Refusal String) : Prop :=
  match first with
  | some r => result = .error r
  | none => ∃ text, result = .ok text

variable {info : NodeInfo} {first first' : Option Refusal} {result left right : Except Refusal String}
  {names : FieldNames} {scope : Scope}

theorem Decides.map (h : Decides first result) (f : String → String) : Decides first (f <$> result) := by
  cases first with
  | some r =>
    obtain rfl : result = .error r := h
    rfl
  | none =>
    obtain ⟨text, rfl⟩ := h
    exact ⟨f text, rfl⟩

/-- Two results that are both needed are refused as the first of them that is. -/
theorem Decides.both (h : Decides first left) (h' : Decides first' right)
    (f : String → String → String) :
    Decides (first.or first') (do return f (← left) (← right)) := by
  cases first with
  | some r =>
    obtain rfl : left = .error r := h
    rfl
  | none =>
    obtain ⟨text, rfl⟩ := h
    exact h'.map (f text)

theorem NodeInfo.decides_unsorted (h : Decides first result) :
    Decides (info.refusals.head?.or first) (info.unsorted result) := by
  rw [refusals, unsorted]
  split
  · exact h
  · rfl

theorem Boolean.decides_compile (b : Boolean) (h : Decides first left) (h' : Decides first' right) :
    Decides (b.refusals.head?.or (first.or first')) (b.compile left right) := by
  have joined (joint : String) : Decides
      ((if b.modifiers.isEmpty then [] else [Refusal.modified b.text]).head?.or (first.or first'))
      (if !b.modifiers.isEmpty then .error (.modified b.text)
        else do return "(" ++ (← left) ++ " " ++ joint ++ " " ++ (← right) ++ ")") := by
    cases b.modifiers.isEmpty with
    | true => exact h.both h' fun l r => "(" ++ l ++ " " ++ joint ++ " " ++ r ++ ")"
    | false => rfl
  rw [refusals, compile]
  cases b.connective with
  | and => exact joined "AND"
  | or => exact joined "OR"
  | not => exact (joined "AND").map _
  | prox => rfl

theorem Relation.decides_compile {r : Relation} (unrefined : r.modifiers = []) (qualifier : String)
    (term : Term) : Decides r.refusals.head? (r.compile qualifier term) := by
  rw [refusals, unrefined, compile]
  cases r.kind with
  | comparison comparator => cases comparator <;> exact ⟨_, rfl⟩
  | all | any => exact ⟨_, rfl⟩
  | named name => rfl

theorem Clause.decides_compile {c : Clause} (bare : c.index.modifiers = []) :
    Decides c.relation.refusals.head? (c.compile names scope) := by
  rw [compile, bare, List.isEmpty_nil, if_neg (by simp)]
  cases refined : c.relation.modifiers with
  | nil => exact Relation.decides_compile refined _ _
  | cons m ms =>
    rw [Relation.refusals, refined]
    rfl

/-! ### Trees -/

namespace Node

theorem firstRefusal_clause {info : NodeInfo} {c : Clause} {parent : Option Nat} {around : Scope} :
    firstRefusal ((clause info c).places parent around) =
      info.refusals.head?.or c.relation.refusals.head? := by
  rw [places, firstRefusal, List.findSome?_singleton, refusals, List.head?_append]

theorem firstRefusal_triple {info : NodeInfo} {l r : Node} {b : Boolean} {parent : Option Nat}
    {around : Scope} : firstRefusal ((triple info l b r).places parent around) =
      info.refusals.head?.or (b.refusals.head?.or
        ((firstRefusal (l.places (some info.id) (around.enter info.prefixes))).or
          (firstRefusal (r.places (some info.id) (around.enter info.prefixes))))) := by
  rw [places, firstRefusal, ← List.singleton_append, List.findSome?_append, List.findSome?_append,
    List.findSome?_singleton, refusals, List.head?_append, Option.or_assoc]
  rfl

/-- A tree is refused for what is wrong with the first of its nodes with which anything is. -/
theorem decides_compile (n : Node) (bare : ∀ c ∈ n.clauses, c.index.modifiers = [])
    (names : FieldNames) (scope : Scope) (parent : Option Nat) (around : Scope) :
    Decides (firstRefusal (n.places parent around)) (n.compile names scope) := by
  induction n generalizing scope parent around with
  | clause info c =>
    rw [compile, firstRefusal_clause]
    exact NodeInfo.decides_unsorted (Clause.decides_compile (bare c (by simp [clauses])))
  | triple info l b r ih ih' =>
    obtain ⟨bare, bare'⟩ := List.forall_mem_append.1 bare
    rw [compile, firstRefusal_triple]
    exact NodeInfo.decides_unsorted (b.decides_compile (ih bare _ _ _) (ih' bare' _ _ _))

/-- A tree without its declarations. -/
def undeclared : Node → Node
  | .clause info c => .clause { info with prefixes := .empty } c
  | .triple info left b right =>
    .triple { info with prefixes := .empty } left.undeclared b right.undeclared

theorem clauses_undeclared (n : Node) : n.undeclared.clauses = n.clauses := by
  induction n with
  | clause info c => rfl
  | triple info l b r ih ih' => rw [undeclared, clauses, ih, ih', clauses]

/-- Declarations and the scope have no say in what is reported. -/
theorem firstRefusal_undeclared (n : Node) (parent : Option Nat) (around around' : Scope) :
    firstRefusal (n.undeclared.places parent around) = firstRefusal (n.places parent around') := by
  induction n generalizing parent around around' with
  | clause info c =>
    rw [undeclared, firstRefusal_clause, firstRefusal_clause]
    rfl
  | triple info l b r ih ih' =>
    rw [undeclared, firstRefusal_triple, firstRefusal_triple, ih _ _ (around'.enter info.prefixes),
      ih' _ _ (around'.enter info.prefixes)]
    rfl

end Node

/-! ### Queries -/

namespace Query

/-- Whether the tree of a query decides, with any names of fields, if there is a search string, and if
    not, what is reported. -/
structure DecidedByTree (q : Query) : Prop where
  fails : ∀ names, (∃ d, q.compile names = .error d) ↔ ∃ place ∈ q.places, place.node.Offends
  /-- What is reported is the first thing that is wrong with the first node that offends. -/
  first : ∀ names d, q.compile names = .error d ↔ ∃ before place after r others,
    q.places = before ++ place :: after ∧ (∀ earlier ∈ before, ¬earlier.node.Offends) ∧
      place.node.refusals = r :: others ∧ d = ⟨r.code, r.details, q.source⟩
  /-- Of what is wrong with one node that with the largest number comes first. -/
  order : ∀ place ∈ q.places,
    place.node.refusals.Pairwise fun r r' => r'.code.number < r.code.number
  codes : ∀ names d, q.compile names = .error d → d.code.number ∈ [80, 37, 21, 19]
  /-- A tree with other declarations, in any scope, fares alike. -/
  alike : ∀ q' : Query, q'.source = q.source → q'.root.undeclared = q.root.undeclared →
    ∀ names names' d, q'.compile names' = .error d ↔ q.compile names = .error d

variable {q : Query}

theorem compile_eq_error_iff (bare : ∀ c ∈ q.clauses, c.index.modifiers = []) {d : Diagnostic} :
    q.compile names = .error d ↔
      ∃ r, firstRefusal q.places = some r ∧ d = ⟨r.code, r.details, q.source⟩ := by
  have decided := q.root.decides_compile bare names q.scope none q.scope
  rw [compile, places]
  cases first : firstRefusal (q.root.places none q.scope) with
  | none =>
    rw [first] at decided
    obtain ⟨text, compiled⟩ := decided
    rw [compiled]
    exact iff_of_false (by rintro ⟨⟩) (by simp)
  | some r =>
    rw [first] at decided
    have compiled : q.root.compile names q.scope = .error r := decided
    rw [compiled]
    constructor
    · rintro ⟨⟩
      exact ⟨r, rfl, rfl⟩
    · rintro ⟨_, ⟨⟩, rfl⟩
      rfl

theorem decidedByTree_of_bare (bare : ∀ c ∈ q.clauses, c.index.modifiers = []) :
    q.DecidedByTree where
  fails names := by
    constructor
    · rintro ⟨d, failed⟩
      obtain ⟨r, first, -⟩ := (compile_eq_error_iff bare).1 failed
      by_contra! sound
      cases (firstRefusal_eq_none.2 sound).symm.trans first
    · rintro ⟨place, mem, offends⟩
      cases first : firstRefusal q.places with
      | some r => exact ⟨_, (compile_eq_error_iff bare).2 ⟨r, first, rfl⟩⟩
      | none => exact absurd offends (firstRefusal_eq_none.1 first place mem)
  first names d := by
    rw [compile_eq_error_iff bare]
    constructor
    · rintro ⟨r, first, rfl⟩
      obtain ⟨before, place, after, others, split, sound, refusals⟩ := firstRefusal_eq_some.1 first
      exact ⟨before, place, after, r, others, split, sound, refusals, rfl⟩
    · rintro ⟨before, place, after, r, others, split, sound, refusals, rfl⟩
      exact ⟨r, firstRefusal_eq_some.2 ⟨before, place, after, others, split, sound, refusals⟩, rfl⟩
  order place _ := place.node.pairwise_refusals
  codes names d failed := by
    obtain ⟨r, -, rfl⟩ := (compile_eq_error_iff bare).1 failed
    cases r <;> simp [Refusal.code, DiagnosticCode.number]
  alike q' source same names names' d := by
    have bare' : ∀ c ∈ q'.clauses, c.index.modifiers = [] := by
      rwa [clauses, ← Node.clauses_undeclared, same, Node.clauses_undeclared]
    have first : firstRefusal q'.places = firstRefusal q.places := by
      rw [places, ← Node.firstRefusal_undeclared _ none q.scope, same,
        Node.firstRefusal_undeclared _ none q.scope q.scope, places]
    rw [compile_eq_error_iff bare, compile_eq_error_iff bare', first, source]

end Query

/-- The tree of every query that is read decides whether the query has a search string. -/
theorem decidedByTree_of_parse {rules : Rules} {source : String} {q : Query}
    (read : parse rules source = .ok q) : q.source = source ∧ q.DecidedByTree := by
  obtain ⟨ts, p, lexed, spelled, -, rfl⟩ := parse_eq_ok.1 read
  have tree : (p.build 0).WellFormed rules :=
    (wellFormed_hereditary.holds spelled (ofText_eq.1 lexed).taken (by simp)).build 0
  exact ⟨rfl, Query.decidedByTree_of_bare fun c hc => (tree.clauses c hc).2.1⟩

/-- Sort keys count before the boolean of their node, and that before the relation below it. -/
theorem decidedByTree_of_parse_sorted : ∃ q,
    parse {} ">x=\"y\" a any b and (x.c within/z d prox/u e sortby f x.g/down)" = .ok q ∧
      q.DecidedByTree ∧
      ∀ names, q.compile names = .error ⟨.sorting, "f x.g/down", q.source⟩ := by
  have checked : ((parse {}
      ">x=\"y\" a any b and (x.c within/z d prox/u e sortby f x.g/down)").toOption.any fun q =>
        q.compile {} = .error ⟨.sorting, "f x.g/down", q.source⟩) = true := by
    decide +kernel
  obtain ⟨q, read, failed⟩ := exists_eq_ok_of_any checked
  obtain ⟨-, decided⟩ := decidedByTree_of_parse read
  exact ⟨q, read, decided, fun names =>
    (decided.alike q rfl rfl {} names _).2 (of_decide_eq_true failed)⟩

end ContextualQuery
