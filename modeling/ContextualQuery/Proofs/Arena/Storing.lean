import ContextualQuery.Proofs.Arena.Simulation
import ContextualQuery.Proofs.Arena.Slots
import ContextualQuery.Query.Session

/-! What a reading leaves in the arena.

    A part of a query that is read as a tree is stored as that tree behind whatever was in the arena,
    and its number is that of the root (`Stores`). A reading with a stack of scopes and a counter so
    ends as the reading of trees, and leaves the stack and the counter as they were
    (`simulates_query`). -/

namespace ContextualQuery

open Reader

/-- Whether an arena holds a tree behind the nodes `base`, and the number is that of its root. -/
structure Stores (base : List Slot) (id : Nat) (t : Node) (a : Arena) : Prop where
  id : id = t.id
  built : t.Built base.length
  nodes : a = ⟨base ++ t.slots none⟩

/-- Whether a reading inside the given open scopes stores the tree that another one reads, behind the
    nodes that are stored already. -/
def StoresIn (scopes : List (List String)) (depth : Nat) (m : Storing Nat) (m' : Reading Node) :
    Prop :=
  ∀ lexemes arena, Simulates (Stores arena.nodes) m m' ⟨lexemes, arena, scopes, depth⟩

variable {rules : Rules} {r : Reader} {base : List Slot} {scopes : List (List String)} {depth : Nat}

/-- What is stored behind `base` is the subtree and nothing else. -/
theorem Stores.length {id : Nat} {t : Node} {a : Arena} (h : Stores base id t a) :
    a.nodes.length = base.length + t.count := by
  rw [h.nodes, List.length_append, Node.length_slots]

/-- Steps that change nothing but the arena. -/
theorem Simulates.of_eq {α β : Type} {P : α → β → Arena → Prop} {m : Storing α} {m' : Reading β}
    {a : α} {b : β} {created : Nat} (arena : Arena) (run : m r = .ok a { r with arena })
    (run' : m' r.state = .ok b ⟨r.lexemes, created⟩) (length : created = arena.nodes.length)
    (related : P a b arena) : Simulates P m m' r := by
  unfold Simulates
  rw [run, run', length]
  exact .ok related

/-! ### Steps of storing -/

/-- A clause is the last slot, and its number the length of what was there. -/
theorem simulates_newClause (frames frames' : List PrefixMap) (c : Clause) :
    StoresIn scopes depth ((storing rules).clause frames c) (Script.trees.clause frames' c) := by
  intro lexemes arena
  refine .of_eq (arena.clause c).2 rfl rfl ?_ ⟨rfl, ⟨rfl, rfl, PrefixMap.lower_empty⟩, rfl⟩
  rw [Arena.clause, Arena.push, List.length_append]
  rfl

/-- The step that sets links: both operands get the number of the triple, whose slot is the last
    one. -/
theorem simulates_triple {id id' : Nat} {left right : Node} {middle : Arena}
    (hl : Stores base id left middle) (hr : Stores middle.nodes id' right r.arena) (b : Boolean) :
    Simulates (Stores base) ((storing rules).triple id b id') (Script.trees.triple left b right) r := by
  have next : r.arena.nodes.length = base.length + left.count + right.count := by
    rw [hr.length, hl.length]
  have built : right.Built (base.length + left.count) := hl.length ▸ hr.built
  have arena : r.arena = ⟨base ++ left.slots none ++ right.slots none⟩ := by rw [hr.nodes, hl.nodes]
  have stored := Arena.triple_eq hl.built built b next
  rw [← arena] at stored
  refine .of_eq (a := r.arena.nodes.length) (r.arena.triple left.id b right.id).2 ?_ rfl ?_ ?_
  · rw [hl.id, hr.id]
    rfl
  · rw [stored]
    change r.arena.nodes.length + 1 = (base ++ Node.slots _ _).length
    rw [List.length_append, Node.length_slots, Node.count, next]
    omega
  · refine ⟨rfl, ⟨hl.built, built, next, rfl, PrefixMap.lower_empty⟩, ?_⟩
    rw [stored]
    rfl

/-- Levels are looked up on one side and known on the other. -/
theorem simulates_height {id : Nat} {t : Node} (h : Stores base id t r.arena) :
    Simulates (fun levels levels' a => levels = levels' ∧ a = r.arena)
      ((storing rules).height id) (Script.trees.height t) r := by
  refine .of_eq r.arena rfl rfl rfl ⟨?_, rfl⟩
  rw [h.id, h.nodes, Arena.height_last none h.built]

/-- The slot of a subtree's root is changed after others have been stored below it. -/
theorem simulates_sortBy {id : Nat} {t : Node} (h : Stores base id t r.arena) (keys : List Index) :
    Simulates (Stores base) ((storing rules).sortBy id keys) (Script.trees.sortBy t keys) r := by
  have changed : r.arena.modify id (fun slot => { slot with sortKeys := keys }) =
      ⟨base ++ (t.sortBy keys).slots none⟩ := by
    rw [h.nodes, h.id, Arena.modify_last none h.built, Node.slots_sortBy]
  refine .of_eq (r.arena.modify id _) rfl rfl (List.length_modify ..).symm
    ⟨?_, h.built.sortBy keys, changed⟩
  rw [h.id]
  cases t <;> rfl

/-- Declarations are attached when their scope is left, long after the slot was made. -/
theorem simulates_declare {id : Nat} {t : Node} (h : Stores base id t r.arena) (group : PrefixMap) :
    Simulates (Stores base) ((storing rules).declare id group) (Script.trees.declare t group) r := by
  have changed : r.arena.modify id
      (fun slot => { slot with prefixes := slot.prefixes.withDefaults group }) =
        ⟨base ++ (t.declare group).slots none⟩ := by
    rw [h.nodes, h.id, Arena.modify_last none h.built, Node.slots_declare, Node.prefixes_slot]
  refine .of_eq (r.arena.modify id _) rfl rfl (List.length_modify ..).symm
    ⟨?_, h.built.declare group, changed⟩
  rw [h.id]
  cases t <;> rfl

/-- What is pushed when a scope is entered is popped when it is left. -/
theorem Simulates.within {α β : Type} {P : α → β → Arena → Prop} {names : List String}
    {inner : Storing α} {inner' : Reading β}
    (h : Simulates P inner inner' { r with scopes := names :: r.scopes, depth := r.depth + 1 }) :
    Simulates P (Reader.within names inner) inner' r := by
  unfold Simulates Reader.within at *
  change EndsLike P _ _ (inner' r.state) at h
  generalize inner _ = x, inner' r.state = y at h ⊢
  cases h with
  | ok related => exact .ok related
  | error => exact .error

/-! ### Parts of queries -/

/-- Either form of a clause stores one slot. -/
theorem simulates_clause (frames frames' : List PrefixMap) : StoresIn scopes depth
    (Script.clause rules (storing rules) frames) (Script.clause rules Script.trees frames') := by
  intro _ arena
  refine .after .following fun next _ => .ite ?_ (.ite ?_ ?_)
  · exact .after .current fun _ _ => .guard (.after .term fun _ l =>
      simulates_newClause frames frames' _ l arena)
  · exact .after .current fun _ _ => .refuse
  · refine .after .name fun _ _ => .after .advance fun _ _ => .after .relation fun _ _ => ?_
    exact .after .current fun _ _ => .guard (.after .term fun _ l =>
      simulates_newClause frames frames' _ l arena)

section

variable {operand : Storing Nat} {operand' : Reading Node}
  (h : StoresIn scopes depth operand operand')
include h

/-- A left operand is in the arena already; the right one is stored behind it, then the triple. -/
theorem simulates_join {id : Nat} {left : Node} {lexemes : Lexemes} {arena : Arena}
    (stored : Stores base id left arena) :
    Simulates (Stores base) (Script.join rules (storing rules) operand id)
      (Script.join rules Script.trees operand' left) ⟨lexemes, arena, scopes, depth⟩ := by
  refine .after .boolean fun b l => .bind (h l arena) fun id' right _ _ stored' => ?_
  refine .bind (simulates_triple stored stored' b) fun id'' whole _ _ stored'' => ?_
  refine .bind (simulates_height stored'') fun levels levels' _ _ ⟨same, unchanged⟩ => ?_
  subst same unchanged
  exact .guard (.pure stored'')

/-- Each turn of the loop keeps one subtree behind `base`, which grows to the left. -/
theorem simulates_chain : StoresIn scopes depth (Script.chain rules (storing rules) operand)
    (Script.chain rules Script.trees operand') := by
  intro l arena
  refine .bind (h l arena) fun id first _ _ stored => ?_
  refine .bind (.foldWhile (I := Stores arena.nodes) (fun _ _ _ _ => simulates_join h) stored)
    fun id whole _ _ stored => ?_
  refine .after (.currentIs _) fun _ _ => .ite ?_ (.pure stored)
  exact .after .advance fun _ _ => .after .sortKeys fun keys _ => simulates_sortBy stored keys

end

/-- Parentheses and declarations hand the number of a node on. -/
theorem simulates_subquery (frames : List PrefixMap) {enter : PrefixMap → Storing Nat}
    {enter' : PrefixMap → Reading Node}
    (h : ∀ group, StoresIn scopes depth (enter group) (enter' group)) :
    StoresIn scopes depth (Script.subquery rules (storing rules) frames enter)
      (Script.subquery rules Script.trees frames enter') := by
  intro _ arena
  refine .after (.currentIs _) fun _ _ => .ite ?_ ?_
  · refine .after .advance fun _ _ => .after .declarations fun group l => ?_
    refine .bind (h group l arena) fun id node _ _ stored => .after (.currentIs _) fun _ _ => ?_
    refine .ite (.after .advance fun _ _ => .pure stored) ?_
    exact .after .current fun _ _ => .refuse_bind
  · exact .after .declarations fun group l =>
      .ite (simulates_clause frames frames l arena) (h group l arena)

/-- Where no more scope may be opened, the counter says so. -/
theorem outer_full (full : rules.maxDepth ≤ r.depth) (frames : List PrefixMap) :
    (storing rules).outer frames r = .error .tooDeep r := by
  change (if r.depth ≥ rules.maxDepth then _ else _ : Storing _) r = _
  rw [if_pos full]
  rfl

/-- Below the limit the open names are looked up. -/
theorem outer_open (room : r.depth < rules.maxDepth) (frames : List PrefixMap) :
    (storing rules).outer frames r = .ok r.scopes r := by
  change (if r.depth ≥ rules.maxDepth then _ else _ : Storing _) r = _
  rw [if_neg (Nat.not_le.2 room)]
  rfl

/-- The counter and the number of scopes that may still be opened make up the limit, and the stack
    holds what the groups around declare. -/
theorem simulates_inScope (left : Nat) : ∀ (depth : Nat) (frames : List PrefixMap)
    (group : PrefixMap), depth + left = rules.maxDepth →
      StoresIn (frames.map PrefixMap.names) depth
        (Script.inScope rules (storing rules) (left + 1) frames group)
        (Script.inScope rules Script.trees left frames group) := by
  induction left with
  | zero =>
    intro depth frames group full l arena
    change EndsLike _ _ (EStateM.bind ((storing rules).outer frames) _ ⟨l, arena, _, depth⟩) _
    rw [EStateM.bind, outer_full (Nat.le_of_eq full.symm)]
    exact .error
  | succ left ih =>
    intro depth frames group room l arena
    have inner : StoresIn (frames.map PrefixMap.names) depth
        (do
          let node ← (storing rules).within group (Script.chain rules (storing rules)
            (Script.subquery rules (storing rules) (group :: frames)
              (Script.inScope rules (storing rules) (left + 1) (group :: frames))))
          (storing rules).declare node group)
        (do
          let node ← Script.trees.within group (Script.chain rules Script.trees
            (Script.subquery rules Script.trees (group :: frames)
              (Script.inScope rules Script.trees left (group :: frames))))
          Script.trees.declare node group) := fun l arena =>
      .bind (.within (simulates_chain (simulates_subquery (group :: frames) fun group' =>
        ih (depth + 1) (group :: frames) group' (by omega)) l arena)) fun _ _ _ _ stored =>
          simulates_declare stored group
    refine .bind (P := fun names names' a => names = names' ∧ a = arena)
      (.of_eq _ (outer_open (by simp only; omega) frames) rfl rfl ⟨rfl, rfl⟩)
      fun names names' l a ⟨same, unchanged⟩ => ?_
    subst same unchanged
    refine .ite ?_ (inner l a)
    rw [declared_storing, Script.declared_trees]
    generalize List.find? _ _ = clash
    cases clash with
    | some name => exact .refuse_bind
    | none => exact inner l a

/-! ### Queries -/

/-- Whether a stored query is a query that was read as a tree, behind the nodes `base`. -/
structure StoredQuery.Holds (s : StoredQuery) (base : List Slot) (q : Query) : Prop where
  source : s.source = q.source
  defaults : s.defaults = q.defaults
  len : s.len = q.size
  root : Stores base s.root q.root s.arena

/-- The counter of open scopes starts at nothing and the stack is empty. -/
theorem simulates_whole : StoresIn [] 0 (Script.whole rules (storing rules) (rules.maxDepth + 1))
    (Script.whole rules Script.trees rules.maxDepth) := by
  intro _ arena
  refine .after .declarations fun group l => ?_
  refine .bind (simulates_inScope rules.maxDepth 0 [] group (Nat.zero_add _) l arena)
    fun id root _ _ stored => .after .current fun found _ => ?_
  cases found with
  | none => exact .pure stored
  | some t => exact .refuse_bind

/-- A whole query is stored as it is read, and nothing is in the arena behind it. -/
theorem simulates_query (rules : Rules) (source : String) (lexemes : Lexemes) (arena : Arena) :
    Simulates (fun s q a => a = {} ∧ s.Holds arena.nodes q) (Reader.query rules source)
      (Reading.query rules source) ⟨lexemes, arena, [], 0⟩ := by
  refine .bind (simulates_whole lexemes arena) fun id root l a stored => ?_
  refine .bind (P := fun taken size a' => taken = a ∧ size = a.nodes.length ∧ a' = {})
    (.of_eq _ rfl rfl rfl ⟨rfl, rfl, rfl⟩) fun taken size _ _ ⟨same, length, emptied⟩ => ?_
  subst same length
  exact .pure ⟨emptied, rfl, rfl, rfl, stored⟩

namespace StoredQuery.Holds

variable {s : StoredQuery} {q : Query}

/-- All nodes of the tree are stored with their links. -/
theorem stored (h : s.Holds base q) : q.root.Stored s.arena none := by
  have all := Node.stored_slots none h.root.built []
  rwa [List.append_nil, ← h.root.nodes] at all

theorem count_le (h : s.Holds base q) : q.root.count ≤ s.len := by
  rw [StoredQuery.len, h.root.length]
  exact Nat.le_add_left _ _

/-- The tree is read back from the arena. -/
theorem query?_eq (h : s.Holds base q) : s.query? = some q := by
  rw [query?, h.root.id, h.stored.tree?_id h.count_le, h.source, h.defaults, h.len]
  rfl

/-- The clauses from left to right, found by going down from the root. -/
theorem clauses_eq (h : s.Holds base q) : s.clauses = q.clauses := by
  rw [clauses, h.root.id, h.stored.clauses_id h.count_le]
  rfl

end StoredQuery.Holds

/-- What comes of one reading into an arena, and of the same reading of trees. -/
inductive Reader.Beside (base : List Slot) (source : String) :
    Except Diagnostic StoredQuery × Reader → Except Diagnostic Query × Session → Prop
  | read {s : StoredQuery} {q lexemes} (holds : s.Holds base q) :
      Beside base source (.ok s, { lexemes }) (.ok q, ⟨source, ⟨lexemes, 0⟩⟩)
  | refused {d lexemes arena} : Beside base source (.error d, { lexemes, arena })
      (.error d, ⟨source, ⟨lexemes, arena.nodes.length⟩⟩)

/-- One reading from any state on, no scope being open. -/
theorem Reader.beside_read (rules : Rules) (source : String) (lexemes : Lexemes) (arena : Arena) :
    Beside arena.nodes source (read rules source { lexemes, arena })
      (Session.read rules ⟨source, ⟨lexemes, arena.nodes.length⟩⟩) := by
  have alike := simulates_query rules source lexemes arena
  unfold Simulates at alike
  rw [Reader.read, Session.read, EStateM.run, EStateM.run]
  change EndsLike _ _ _ (Reading.query rules source ⟨lexemes, arena.nodes.length⟩) at alike
  generalize Reader.query rules source _ = x, Reading.query rules source _ = y at alike ⊢
  cases alike with
  | ok related =>
    obtain ⟨rfl, holds⟩ := related
    exact .read holds
  | error => exact .refused

/-- A text is stored as the query that it is read as, or refused with the same report. -/
theorem store_eq (rules : Rules) (source : String) :
    (∃ d, store rules source = .error d ∧ parse rules source = .error d) ∨
      ∃ s q, store rules source = .ok s ∧ parse rules source = .ok q ∧ s.Holds [] q := by
  unfold store parse Reader.start Session.start
  cases begun : Reading.start (.ofText rules.wordChars source) with
  | error fault => exact .inl ⟨_, rfl, rfl⟩
  | ok state =>
    obtain rfl := Reading.eq_of_start begun
    have beside := Reader.beside_read rules source (.ofText rules.wordChars source) {}
    simp only [bind, Except.bind]
    change Reader.Beside [] source _ (Session.read rules ⟨source, ⟨_, 0⟩⟩) at beside
    generalize Reader.read rules source _ = x, Session.read rules _ = y at beside ⊢
    cases beside with
    | read holds => exact .inr ⟨_, _, rfl, rfl, holds⟩
    | refused => exact .inl ⟨_, rfl, rfl⟩

end ContextualQuery
