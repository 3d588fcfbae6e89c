import ContextualQuery.Proofs.Layout
import ContextualQuery.Search.ResultSet

/-! Which result set a tree names.

    A tree names a result set exactly if each of its nodes goes along with it (`Place.Names`): a clause
    by searching the index of result sets for its id, a triple by joining with `and` or `or`. So one
    other clause, one other boolean or one other id anywhere below a node is enough that it names none
    (`Query.namesExactly`). It comes to the same to gather the ids of all clauses first and to compare
    them in the end (`Node.resultSet?_eq_gather`). -/

namespace ContextualQuery

variable {scope around : Scope} {parent : Option Nat} {v : String}

/-! ### Places below a place -/

/-- The nodes of the subtree at a place where they stand. -/
def Place.below (p : Place) : List Place := p.node.places p.parent p.around

/-- Whether a node goes along with a result set. -/
def Place.Names (p : Place) (set : String) : Prop :=
  match p.node with
  | .clause _ c =>
    p.scope.resolve c.index.name.set = some ContextSet.cql ∧
      Text.sameFold c.index.name.base resultSetIndex = true ∧ c.term.unquoted = set
  | .triple _ _ boolean _ => boolean.connective = .and ∨ boolean.connective = .or

theorem Place.below_sublist {t : Node} {p : Place} (mem : p ∈ t.places parent around) :
    p.below.Sublist (t.places parent around) := by
  induction t generalizing parent around with
  | clause info c =>
    obtain rfl := List.mem_singleton.1 mem
    exact .refl _
  | triple info left boolean right ih ih' =>
    rw [Node.places, List.mem_cons, List.mem_append] at mem
    rw [Node.places]
    obtain rfl | mem | mem := mem
    · exact .refl _
    · exact ((ih mem).trans (List.sublist_append_left _ _)).cons _
    · exact ((ih' mem).trans (List.sublist_append_right _ _)).cons _

/-! ### Trees -/

theorem Clause.resultSet?_eq_some {c : Clause} :
    c.resultSet? scope = some v ↔ scope.resolve c.index.name.set = some ContextSet.cql ∧
      Text.sameFold c.index.name.base resultSetIndex = true ∧ c.term.unquoted = v := by
  rw [resultSet?]
  split
  next own => simp [own]
  next foreign => exact iff_of_false (by simp) fun own => foreign ⟨own.1, own.2.1⟩

theorem Node.resultSet?_triple {info : NodeInfo} {left right : Node} {boolean : Boolean} :
    (triple info left boolean right).resultSet? scope = some v ↔
      (boolean.connective = .and ∨ boolean.connective = .or) ∧
        left.resultSet? (scope.enter info.prefixes) = some v ∧
        right.resultSet? (scope.enter info.prefixes) = some v := by
  have both : (do
      let one ← left.resultSet? (scope.enter info.prefixes)
      let other ← right.resultSet? (scope.enter info.prefixes)
      if one = other then some one else none) = some v ↔
        left.resultSet? (scope.enter info.prefixes) = some v ∧
        right.resultSet? (scope.enter info.prefixes) = some v := by
    cases left.resultSet? (scope.enter info.prefixes) with
    | none => simp
    | some one =>
      cases right.resultSet? (scope.enter info.prefixes) with
      | none => simp
      | some other => by_cases same : one = other <;> simp [same]; grind
  rw [resultSet?]
  cases boolean.connective with
  | and | or => simpa using both
  | not | prox => simp

/-- A tree names a result set exactly if each of its nodes goes along with it. -/
theorem Node.resultSet?_eq_some (t : Node) (parent : Option Nat) (around : Scope) :
    t.resultSet? around = some v ↔ ∀ p ∈ t.places parent around, p.Names v := by
  induction t generalizing parent around with
  | clause info c =>
    rw [resultSet?, Clause.resultSet?_eq_some, places, List.forall_mem_singleton]
    rfl
  | triple info left boolean right ih ih' =>
    rw [resultSet?_triple, places, List.forall_mem_cons, List.forall_mem_append, ← ih, ← ih']
    rfl

theorem Place.resultSet?_eq_some (p : Place) : p.resultSet? = some v ↔ ∀ r ∈ p.below, r.Names v :=
  p.node.resultSet?_eq_some p.parent p.around

/-! ### Gathering ids -/

/-- The ids of the clauses of a tree from left to right, behind those found before. There are none as
    soon as a clause has none or a triple does not join by `and` or `or`. -/
def Node.gather (scope : Scope) : Node → List String → Option (List String)
  | .clause info c, found =>
    (c.resultSet? (scope.enter info.prefixes)).map fun id => found ++ [id]
  | .triple info left boolean right, found =>
    match boolean.connective with
    | .not | .prox => none
    | .and | .or => do
      right.gather (scope.enter info.prefixes) (← left.gather (scope.enter info.prefixes) found)

/-- The text that each of some texts is. -/
def commonText : List String → Option String
  | [] => none
  | first :: rest => if rest.all (· == first) then some first else none

theorem commonText_eq_some {ids : List String} :
    commonText ids = some v ↔ ids ≠ [] ∧ ∀ id ∈ ids, id = v := by
  cases ids with
  | nil => simp [commonText]
  | cons first rest =>
    simp only [commonText, List.all_eq_true, beq_iff_eq, Option.ite_none_right_eq_some,
      Option.some.injEq, List.forall_mem_cons]
    constructor
    · rintro ⟨same, rfl⟩
      exact ⟨by simp, rfl, same⟩
    · rintro ⟨-, rfl, same⟩
      exact ⟨same, rfl⟩

namespace Node

variable {info : NodeInfo} {left right : Node} {boolean : Boolean} {found all : List String}

theorem gather_triple : (triple info left boolean right).gather scope found = some all ↔
    (boolean.connective = .and ∨ boolean.connective = .or) ∧ ∃ ids,
      left.gather (scope.enter info.prefixes) found = some ids ∧
      right.gather (scope.enter info.prefixes) ids = some all := by
  rw [gather]
  cases boolean.connective <;> simp [Option.bind_eq_some_iff]

/-- Ids are only added, and every tree adds some. -/
theorem exists_of_gather {t : Node} (h : t.gather scope found = some all) :
    ∃ ids, ids ≠ [] ∧ all = found ++ ids := by
  induction t generalizing scope found all with
  | clause info c =>
    obtain ⟨id, -, rfl⟩ := Option.map_eq_some_iff.1 h
    exact ⟨[id], by simp, rfl⟩
  | triple info left boolean right ih ih' =>
    obtain ⟨-, ids, first, second⟩ := gather_triple.1 h
    obtain ⟨us, some_id, rfl⟩ := ih first
    obtain ⟨vs, -, rfl⟩ := ih' second
    exact ⟨us ++ vs, by simp [some_id], by rw [List.append_assoc]⟩

theorem resultSet?_eq_some_iff_gather (t : Node) (scope : Scope) (found : List String) :
    t.resultSet? scope = some v ↔
      ∃ ids, t.gather scope found = some (found ++ ids) ∧ ∀ id ∈ ids, id = v := by
  induction t generalizing scope found with
  | clause info c => simp [resultSet?, gather]
  | triple info left boolean right ih ih' =>
    rw [resultSet?_triple]
    simp only [gather_triple]
    constructor
    · rintro ⟨joins, first, second⟩
      obtain ⟨us, gathered, same⟩ := (ih _ found).1 first
      obtain ⟨vs, gathered', same'⟩ := (ih' _ (found ++ us)).1 second
      rw [List.append_assoc] at gathered'
      exact ⟨us ++ vs, ⟨joins, _, gathered, gathered'⟩, List.forall_mem_append.2 ⟨same, same'⟩⟩
    · rintro ⟨ids, ⟨joins, us, gathered, gathered'⟩, same⟩
      obtain ⟨us, -, rfl⟩ := exists_of_gather gathered
      obtain ⟨vs, -, split⟩ := exists_of_gather gathered'
      rw [List.append_assoc] at split
      obtain rfl := List.append_cancel_left split
      rw [← List.append_assoc] at gathered'
      obtain ⟨same, same'⟩ := List.forall_mem_append.1 same
      exact ⟨joins, (ih _ found).2 ⟨us, gathered, same⟩, (ih' _ _).2 ⟨vs, gathered', same'⟩⟩

/-- The ids of all clauses may be gathered first and compared in the end. -/
theorem resultSet?_eq_gather (t : Node) (scope : Scope) :
    t.resultSet? scope = (t.gather scope []).bind commonText := by
  ext v
  rw [resultSet?_eq_some_iff_gather t scope [], Option.bind_eq_some_iff]
  constructor
  · rintro ⟨ids, gathered, same⟩
    obtain ⟨_, some_id, rfl⟩ := exists_of_gather gathered
    exact ⟨ids, gathered, commonText_eq_some.2 ⟨some_id, same⟩⟩
  · rintro ⟨ids, gathered, common⟩
    exact ⟨ids, gathered, (commonText_eq_some.1 common).2⟩

end Node

/-! ### Queries -/

namespace Query

/-- Whether the subtrees of a query name the result sets that all of their nodes go along with. -/
structure NamesExactly (q : Query) : Prop where
  /-- The nodes of a subtree have the scopes that they have in the query. -/
  below : ∀ p ∈ q.places, p.below.Sublist q.places
  exact : ∀ p ∈ q.places, ∀ v, p.resultSet? = some v ↔ ∀ r ∈ p.below, r.Names v
  /-- A triple by `and` or `or` names what both of its operands name. -/
  joined : ∀ p ∈ q.places, ∀ info l b r, p.node = .triple info l b r →
    ∃ left ∈ q.places, ∃ right ∈ q.places, left.node = l ∧ left.parent = some p.node.id ∧
      right.node = r ∧ right.parent = some p.node.id ∧
      (b.connective = .and ∨ b.connective = .or →
        ∀ v, p.resultSet? = some v ↔ left.resultSet? = some v ∧ right.resultSet? = some v)
  /-- Another boolean anywhere below rules all ids out. -/
  connective : ∀ p ∈ q.places, ∀ place ∈ p.below, ∀ info l b r, place.node = .triple info l b r →
    b.connective = .not ∨ b.connective = .prox → p.resultSet? = none
  /-- So does a clause that searches another index. -/
  foreign : ∀ p ∈ q.places, ∀ place ∈ p.below, ∀ info c, place.node = .clause info c →
    place.scope.resolve c.index.name.set ≠ some ContextSet.cql ∨
      Text.sameFold c.index.name.base resultSetIndex = false → p.resultSet? = none
  /-- And so do two clauses with different ids. -/
  differing : ∀ p ∈ q.places, ∀ place ∈ p.below, ∀ place' ∈ p.below, ∀ info c info' c',
    place.node = .clause info c → place'.node = .clause info' c' →
      c.term.unquoted ≠ c'.term.unquoted → p.resultSet? = none
  /-- The ids of all clauses below may be gathered first and compared in the end. -/
  gathered : ∀ p ∈ q.places, p.resultSet? = (p.node.gather p.around []).bind commonText

/-- The result set of every subtree is told by its nodes. -/
theorem namesExactly (q : Query) : q.NamesExactly where
  below p mem := Place.below_sublist mem
  exact p _ v := p.resultSet?_eq_some
  joined p mem info l b r here := by
    obtain ⟨node, parent, around⟩ := p
    obtain rfl : node = .triple info l b r := here
    have inside := (Place.below_sublist mem).subset
    have operands {place : Place} (h : place ∈ l.places (some info.id) (around.enter info.prefixes) ++
        r.places (some info.id) (around.enter info.prefixes)) : place ∈ q.places :=
      inside (List.mem_cons_of_mem _ h)
    refine ⟨_, operands (List.mem_append_left _ (l.places_root _ _)), _,
      operands (List.mem_append_right _ (r.places_root _ _)), rfl, rfl, rfl, rfl, fun joins v => ?_⟩
    rw [Place.resultSet?, Node.resultSet?_triple, and_iff_right joins]
    rfl
  -- The other clauses say what a name is not given for: they follow from what it is given for.
  connective p _ place below info l b r here other := by
    refine Option.eq_none_iff_forall_ne_some.2 fun v named => ?_
    have joins := p.resultSet?_eq_some.1 named place below
    rw [Place.Names, here] at joins
    rcases joins with joins | joins <;> simp [joins] at other
  foreign p _ place below info c here other := by
    refine Option.eq_none_iff_forall_ne_some.2 fun v named => ?_
    have own := p.resultSet?_eq_some.1 named place below
    rw [Place.Names, here] at own
    rcases other with other | other
    · exact other own.1
    · exact absurd own.2.1 (by simp [other])
  differing p _ place below place' below' info c info' c' here here' other := by
    refine Option.eq_none_iff_forall_ne_some.2 fun v named => ?_
    have own := p.resultSet?_eq_some.1 named place below
    have own' := p.resultSet?_eq_some.1 named place' below'
    rw [Place.Names, here] at own
    rw [Place.Names, here'] at own'
    exact other (own.2.2.trans own'.2.2.symm)
  gathered p _ := p.node.resultSet?_eq_gather p.around

/-- The index of result sets under a declared and under a reserved name. -/
theorem namesExactly_of_parse : ∃ q,
    parse {} ">x=\"info:srw/cql-context-set/1/cql-v1.1\" x.ResultSetId=\"rs1\" or cql.resultsetid=rs1" =
      .ok q ∧ q.NamesExactly ∧ q.resultSet? = some "rs1" ∧ ∀ place ∈ q.places, place.Names "rs1" := by
  have checked : ((parse {}
      ">x=\"info:srw/cql-context-set/1/cql-v1.1\" x.ResultSetId=\"rs1\" or cql.resultsetid=rs1"
        ).toOption.any fun q => q.resultSet? == some "rs1") = true := by
    decide +kernel
  obtain ⟨q, read, found⟩ := exists_eq_ok_of_any checked
  have named : q.resultSet? = some "rs1" := by simpa using found
  have exactly := q.namesExactly
  refine ⟨q, read, exactly, named, fun place mem => ?_⟩
  exact (exactly.exact _ (q.root.places_root none q.scope) "rs1").1 named place mem

end Query

end ContextualQuery
