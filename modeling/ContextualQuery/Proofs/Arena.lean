import ContextualQuery.Proofs.Arena.Storing
import Mathlib.Logic.Relation

/-! The arena of a query is its tree.

    Whatever is accepted leaves an arena that holds the nodes below its root and no others, in
    post-order, and in which all links agree: a triple names its operands, and each of them the triple
    (`laidOut_of_parse`). What a short name means at a node is found by going up those links
    (`StoredQuery.Holds.resolve_eq`). -/

namespace ContextualQuery

/-- Whether going down from the first node leads to the second one. -/
def Arena.Reaches (a : Arena) : Nat → Nat → Prop :=
  Relation.ReflTransGen fun above below => below ∈ a.children above

/-- The numbers of the nodes below a node in post-order, and how many levels they form. -/
inductive Arena.Subtree (a : Arena) : Nat → List Nat → Nat → Prop
  | clause {id c} (kind : a.kind? id = some (.clause c)) : Subtree a id [id] 1
  | triple {id left b right ids ids' levels levels'}
      (kind : a.kind? id = some (.triple left b right)) (hl : Subtree a left ids levels)
      (hr : Subtree a right ids' levels') :
      Subtree a id (ids ++ ids' ++ [id]) (1 + max levels levels')

/-- Whether an arena holds a tree and nothing else, and all that is stored with its nodes agrees with
    the tree. -/
structure StoredQuery.LaidOut (s : StoredQuery) : Prop where
  /-- The stored nodes are those that the root leads to. -/
  reached : ∀ id, s.arena.Reaches s.root id ↔ id < s.len
  /-- They are numbered in the order left operand, right operand, triple. -/
  postorder : s.arena.Subtree s.root (List.range s.len) (s.arena.height s.root)
  root_last : s.root + 1 = s.len
  root_alone : ∀ id < s.len, s.arena.parent? id = none ↔ id = s.root
  /-- Every node but the root is an operand of exactly one triple. -/
  child : ∀ id < s.len, id ≠ s.root → ∃! above, id ∈ s.arena.children above
  /-- An operand names its triple, which has a larger number. -/
  parent : ∀ id above, id ∈ s.arena.children above → s.arena.parent? id = some above ∧ id < above
  /-- Going up from parent to parent ends at the root. -/
  climbs : ∀ id < s.len,
    Relation.ReflTransGen (fun below above => s.arena.parent? below = some above) id s.root
  /-- The levels that are stored with a node are those of its subtree. -/
  height : ∀ id < s.len, ∃ ids, s.arena.Subtree id ids (s.arena.height id)
  size : s.len = 2 * s.clauses.length - 1
  /-- The clauses are listed as their nodes are numbered. -/
  clauses : s.clauses = s.arena.nodes.filterMap Slot.clause?

/-- Whatever has operands is stored. -/
theorem Arena.lt_of_mem_children {a : Arena} {id above : Nat} (h : id ∈ a.children above) :
    above < a.nodes.length := by
  rw [children, kind?] at h
  refine Nat.lt_of_not_le fun outside => ?_
  rw [List.getElem?_eq_none outside] at h
  cases h

namespace Node

variable {a : Arena} {t : Node} {parent : Option Nat}

/-- The numbers below a stored node are those of its tree in post-order. -/
theorem Stored.subtree (h : t.Stored a parent) :
    a.Subtree t.id (t.postorder.map Node.id) t.levels := by
  induction t generalizing parent with
  | clause info c => exact .clause h.kind?_id
  | triple info left b right ih ih' =>
    simp only [postorder, List.map_append, List.map_singleton, levels]
    exact .triple h.kind?_id (ih h.2.1) (ih' h.2.2)

/-- One step up: a node's own declarations come first, then the parent is asked. -/
theorem Stored.lookup_id (h : t.Stored a parent) (name : String) (fuel : Nat) :
    a.lookup name (fuel + 1) t.id =
      (t.prefixes.get? name).or (parent.bind (a.lookup name fuel)) := by
  rw [Arena.lookup, h.getElem?_id, ← t.prefixes_slot parent]
  simp only [Option.bind_some, t.parent_slot]

/-- The clauses among the slots of a tree are its clauses from left to right. -/
theorem filterMap_slots (t : Node) (parent : Option Nat) :
    (t.slots parent).filterMap Slot.clause? = t.clauses := by
  induction t generalizing parent with
  | clause info c => rfl
  | triple info left b right ih ih' =>
    have split : (triple info left b right).slots parent = left.slots (some info.id) ++
        right.slots (some info.id) ++ [(triple info left b right).slot parent] := rfl
    rw [split, List.filterMap_append, List.filterMap_append, ih, ih', clauses]
    exact List.append_nil _

end Node

/-! ### Nodes where they are stored -/

namespace StoredQuery.Holds

variable {base : List Slot} {s : StoredQuery} {q : Query} (h : s.Holds base q)
include h

/-- Every node of the tree is stored with the parent that its place names. -/
theorem stored_of_mem {place : Place} (mem : place ∈ q.places) :
    place.node.Stored s.arena place.parent :=
  Node.forall_places (motive := fun place => place.node.Stored s.arena place.parent) h.stored
    (fun _ _ stored _ below => stored.of_mem_children below) place mem

theorem root_last : s.root + 1 = s.len := by
  rw [h.root.id, h.root.built.id_eq, StoredQuery.len, h.root.length]

/-- Going up from a node meets the declarations around it, innermost first. -/
theorem lookup_eq (name : String) {place : Place} (mem : place ∈ q.places) :
    place.scope.defaults = q.defaults ∧ place.scope.enclosing.length + place.node.id ≤ s.len ∧
      ∀ fuel, place.scope.enclosing.length ≤ fuel → s.arena.lookup name fuel place.node.id =
        place.scope.enclosing.findSome? (·.get? name) := by
  -- Numbers rise on the way up, so a node has no more declarations around it than numbers above it.
  refine Node.forall_places (motive := fun place =>
    place.scope.defaults = q.defaults ∧ place.scope.enclosing.length + place.node.id ≤ s.len ∧
      ∀ fuel, place.scope.enclosing.length ≤ fuel → s.arena.lookup name fuel place.node.id =
        place.scope.enclosing.findSome? (·.get? name)) ⟨rfl, ?_, ?_⟩ ?_ place mem
  · rw [← h.root_last, h.root.id, Nat.add_comm]
    exact Nat.le_refl _
  · rintro (_ | fuel) enough
    · cases enough
    · rw [h.stored.lookup_id]
      simp [Place.scope, Scope.enter, Query.scope]
  · rintro above hab ⟨defaults, room, walk⟩ child below
    have stored := (h.stored_of_mem hab).of_mem_children below
    obtain ⟨n, built⟩ := h.root.built.of_mem_places hab
    have up := built.id_lt below
    have inner : Place.scope ⟨child, some above.node.id, above.scope⟩ =
      ⟨child.prefixes :: above.scope.enclosing, above.scope.defaults⟩ := rfl
    have bound : above.scope.enclosing.length + 1 + child.id ≤ s.len := by omega
    rw [inner]
    refine ⟨defaults, bound, ?_⟩
    rintro (_ | fuel) enough
    · cases enough
    · rw [stored.lookup_id, Option.bind_some, walk fuel (Nat.le_of_succ_le_succ enough),
        List.findSome?_cons]
      cases child.prefixes.get? name <;> rfl

/-- What a short name means at a node is what the scope there says. -/
theorem resolve_eq {place : Place} (mem : place ∈ q.places) (name : String) :
    s.resolve place.node.id name = place.scope.resolve name := by
  obtain ⟨defaults, room, walk⟩ := h.lookup_eq name mem
  rw [resolve, Scope.resolve, walk _ (by omega), defaults, h.defaults]

/-- The set of a clause's index is the one that the place of the clause resolves to. -/
theorem contextSet_eq {place : Place} (mem : place ∈ q.places) :
    s.contextSet place.node.id = place.contextSet := by
  rw [contextSet, (h.stored_of_mem mem).getElem?_id]
  have meaning := h.resolve_eq mem
  obtain ⟨node, parent, around⟩ := place
  cases node with
  | clause info c => exact meaning _
  | triple info left b right => rfl

end StoredQuery.Holds

/-- Whether what was read into an arena is what was read as a tree: both were refused with one report,
    or the tree is read back from the arena, where each of its nodes names the one above it, and names
    mean the same at it. -/
inductive StoredAs : Except Diagnostic StoredQuery → Except Diagnostic Query → Prop
  | refused (d : Diagnostic) : StoredAs (.error d) (.error d)
  | read {s q} (query : s.query? = some q)
      (parent : ∀ place ∈ q.places, s.arena.parent? place.node.id = place.parent)
      (resolve : ∀ place ∈ q.places, ∀ name,
        s.resolve place.node.id name = place.scope.resolve name)
      (contextSet : ∀ place ∈ q.places, s.contextSet place.node.id = place.contextSet) :
      StoredAs (.ok s) (.ok q)

theorem StoredQuery.Holds.storedAs {base : List Slot} {s : StoredQuery} {q : Query}
    (h : s.Holds base q) : StoredAs (.ok s) (.ok q) :=
  .read h.query?_eq (fun _ mem => (h.stored_of_mem mem).parent?_id) (fun _ => h.resolve_eq)
    fun _ => h.contextSet_eq

/-! ### An arena without left-over nodes -/

namespace StoredQuery.Holds

variable {s : StoredQuery} {q : Query} (h : s.Holds [] q)
include h

theorem count : q.root.count = q.size := by
  rw [← h.len, StoredQuery.len, h.root.length, List.length_nil, Nat.zero_add]

/-- Every number is that of a node at some place. -/
theorem exists_place {id : Nat} (hid : id < s.len) : ∃ place ∈ q.places, place.node.id = id := by
  have mem : id ∈ q.root.postorder.map Node.id := by
    rw [Query.numbered_of_built h.root.built h.count, ← h.len]
    exact List.mem_range.2 hid
  obtain ⟨t, ht, rfl⟩ := List.mem_map.1 mem
  obtain ⟨place, hplace, rfl⟩ := List.mem_map.1 ((q.root.map_places none q.scope).mem_iff.2 ht)
  exact ⟨place, hplace, rfl⟩

/-- A node below `above` names `above`, and has a smaller number. -/
theorem parent {id above : Nat} (mem : id ∈ s.arena.children above) :
    s.arena.parent? id = some above ∧ id < above := by
  obtain ⟨place, hplace, rfl⟩ := h.exists_place (Arena.lt_of_mem_children mem)
  have stored := h.stored_of_mem hplace
  rw [stored.children_id] at mem
  obtain ⟨child, below, rfl⟩ := List.mem_map.1 mem
  obtain ⟨n, built⟩ := h.root.built.of_mem_places hplace
  exact ⟨(stored.of_mem_children below).parent?_id, built.id_lt below⟩

/-- All nodes but the root are below one. -/
theorem exists_above {id : Nat} (hid : id < s.len) (other : id ≠ s.root) :
    ∃ above, id ∈ s.arena.children above := by
  obtain ⟨place, hplace, rfl⟩ := h.exists_place hid
  obtain rfl | ⟨above, hab, -, below⟩ := ContextualQuery.exists_above hplace
  · exact absurd h.root.id.symm other
  · refine ⟨above.node.id, ?_⟩
    rw [(h.stored_of_mem hab).children_id]
    exact List.mem_map_of_mem below

/-- The root leads to every node, as the numbers rise on the way up. -/
theorem reaches_of_lt {id : Nat} (hid : id < s.len) : s.arena.Reaches s.root id := by
  induction left : s.len - id using Nat.strongRecOn generalizing id with
  | ind left ih =>
    by_cases here : id = s.root
    · rw [here]
      exact .refl
    · obtain ⟨above, mem⟩ := h.exists_above hid here
      have up := (h.parent mem).2
      have bound : above < s.len := Arena.lt_of_mem_children mem
      exact .tail (ih _ (by omega) bound rfl) mem

/-- Going down never leads out of the arena. -/
theorem lt_of_reaches {id : Nat} (reached : s.arena.Reaches s.root id) : id < s.len := by
  induction reached with
  | refl => exact Nat.lt_of_succ_le (Nat.le_of_eq h.root_last)
  | tail _ mem ih => exact Nat.lt_trans (h.parent mem).2 ih

/-- All links of an arena that holds one query and nothing else. -/
theorem laidOut : s.LaidOut where
  reached id := ⟨h.lt_of_reaches, h.reaches_of_lt⟩
  postorder := by
    have whole := h.stored.subtree
    rw [Query.numbered_of_built h.root.built h.count] at whole
    rw [h.len, h.root.id, h.stored.height_id, h.root.built.height_eq]
    exact whole
  root_last := h.root_last
  root_alone id hid := by
    constructor
    · intro alone
      by_contra other
      obtain ⟨above, mem⟩ := h.exists_above hid other
      cases alone.symm.trans (h.parent mem).1
    · rintro rfl
      rw [h.root.id]
      exact h.stored.parent?_id
  child id hid other := by
    obtain ⟨above, mem⟩ := h.exists_above hid other
    refine ⟨above, mem, fun above' mem' => ?_⟩
    exact Option.some.inj ((h.parent mem').1.symm.trans (h.parent mem).1)
  parent _ _ mem := h.parent mem
  climbs id hid :=
    Relation.ReflTransGen.mono (fun _ _ mem => (h.parent mem).1) _ _ (h.reaches_of_lt hid).swap
  height id hid := by
    obtain ⟨place, hplace, rfl⟩ := h.exists_place hid
    obtain ⟨n, built⟩ := h.root.built.of_mem_places hplace
    have stored := h.stored_of_mem hplace
    rw [stored.height_id, built.height_eq]
    exact ⟨_, stored.subtree⟩
  size := by
    have leaves := q.root.length_clauses
    rw [h.clauses_eq, h.len, ← h.count, Query.clauses]
    omega
  clauses := by
    rw [h.clauses_eq, h.root.nodes]
    exact (q.root.filterMap_slots none).symm

end StoredQuery.Holds

/-- Storing a text and reading it as a tree end alike. -/
theorem storedAs_store (rules : Rules) (source : String) :
    StoredAs (store rules source) (parse rules source) := by
  obtain ⟨d, refused, refused'⟩ | ⟨s, q, stored, read, holds⟩ := store_eq rules source
  · rw [refused, refused']
    exact .refused d
  · rw [stored, read]
    exact holds.storedAs

/-- An accepted text is stored as the tree that it is read as, and its arena is exactly that tree. -/
theorem laidOut_of_parse {rules : Rules} {source : String} {q : Query}
    (read : parse rules source = .ok q) :
    ∃ s, store rules source = .ok s ∧ s.query? = some q ∧ s.LaidOut := by
  obtain ⟨d, -, refused⟩ | ⟨s, q', stored, read', holds⟩ := store_eq rules source
  · cases refused.symm.trans read
  · obtain rfl := Except.ok.inj (read'.symm.trans read)
    exact ⟨s, stored, holds.query?_eq, holds.laidOut⟩

/-- Declarations and sort keys are attached after a triple has been stored. -/
theorem laidOut_of_parse_sorted : ∃ q s,
    parse {} ">a=\"x\" (b = c or d sortby e) and f" = .ok q ∧
      store {} ">a=\"x\" (b = c or d sortby e) and f" = .ok s ∧ s.query? = some q ∧ s.len = 5 ∧
      s.arena.children 2 = [0, 1] ∧ s.LaidOut := by
  have checked : ((store {} ">a=\"x\" (b = c or d sortby e) and f").toOption.any
      fun s => s.len == 5 && s.arena.children 2 == [0, 1]) = true := by
    decide +kernel
  obtain ⟨s, stored, found⟩ := exists_eq_ok_of_any checked
  obtain ⟨d, refused, -⟩ | ⟨s', q, stored', read, -⟩ := store_eq {}
    ">a=\"x\" (b = c or d sortby e) and f"
  · cases refused.symm.trans stored
  · obtain ⟨s'', stored'', query, laid⟩ := laidOut_of_parse read
    obtain rfl := Except.ok.inj (stored''.symm.trans stored)
    simp only [Bool.and_eq_true, beq_iff_eq] at found
    exact ⟨q, s'', read, stored, query, found.1, found.2, laid⟩

end ContextualQuery
