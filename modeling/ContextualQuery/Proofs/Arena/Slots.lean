import ContextualQuery.Proofs.Layout
import ContextualQuery.Query.Arena

/-! Trees in an arena.

    The nodes of a tree that is read fill a stretch of the arena in post-order, the root last, each
    under its number (`Node.slots`). Storing a triple behind two such stretches makes one of them, and
    attaching something to a node only changes the last node of its stretch. What walks find in such
    an arena is what the tree says (`Node.Stored`). -/

namespace ContextualQuery

namespace Node

/-- The root of a tree as it is stored below the node `parent`. -/
def slot (parent : Option Nat) : Node → Slot
  | .clause info c =>
    { kind := .clause c, prefixes := info.prefixes, sortKeys := info.sortKeys, parent,
      height := info.height }
  | .triple info left b right =>
    { kind := .triple left.id b right.id, prefixes := info.prefixes, sortKeys := info.sortKeys, parent,
      height := info.height }

/-- The nodes below the root of a tree as they are stored, each behind those below it. -/
def slotsBelow : Node → List Slot
  | .clause _ _ => []
  | .triple info left _ right =>
    left.slotsBelow ++ [left.slot (some info.id)] ++
      (right.slotsBelow ++ [right.slot (some info.id)])

/-- The nodes of a tree as they are stored below the node `parent`. -/
def slots (parent : Option Nat) (t : Node) : List Slot := t.slotsBelow ++ [t.slot parent]

theorem length_slotsBelow (t : Node) : t.slotsBelow.length + 1 = t.count := by
  induction t with
  | clause info c => rfl
  | triple info left b right ih ih' =>
    simp only [slotsBelow, List.length_append, List.length_singleton, ih, ih', count]

/-- A subtree takes up as many slots as it has nodes. -/
theorem length_slots (parent : Option Nat) (t : Node) : (t.slots parent).length = t.count := by
  rw [slots, List.length_append, List.length_singleton, length_slotsBelow]

/-- Sort keys go into the last slot of the subtree, where its root is. -/
theorem slots_sortBy (keys : List Index) (t : Node) : (t.sortBy keys).slots none =
    t.slotsBelow ++ [{ t.slot none with sortKeys := keys }] := by
  cases t <;> rfl

/-- So do declarations. -/
theorem slots_declare (group : PrefixMap) (t : Node) : (t.declare group).slots none =
    t.slotsBelow ++ [{ t.slot none with prefixes := t.prefixes.withDefaults group }] := by
  cases t <;> rfl

theorem prefixes_slot (parent : Option Nat) (t : Node) : (t.slot parent).prefixes = t.prefixes := by
  cases t <;> rfl

theorem parent_slot (parent : Option Nat) (t : Node) : (t.slot parent).parent = parent := by
  cases t <;> rfl

theorem height_slot (parent : Option Nat) (t : Node) : (t.slot parent).height = t.height := by
  cases t <;> rfl

/-- The number of the root of a stretch that starts at `n` is that of its last place. -/
theorem Built.id_eq_length {t : Node} {n : Nat} (built : t.Built n) :
    t.id = n + t.slotsBelow.length := by
  have last := built.id_eq
  have size := t.length_slotsBelow
  omega

end Node

/-! ### Storing and changing nodes -/

namespace Arena

/-- A change at a number that is the length of what stands in front. -/
theorem modify_append_cons (f : Slot → Slot) (front : List Slot) (slot : Slot) (back : List Slot) :
    (front ++ slot :: back).modify front.length f = front ++ f slot :: back := by
  induction front with
  | nil => rfl
  | cons _ front ih => simp [ih]

variable {base : List Slot} {t left right : Node}

/-- The root of a tree is found under its number. -/
theorem getElem?_slots (parent : Option Nat) (built : t.Built base.length) (back : List Slot) :
    (base ++ t.slots parent ++ back)[t.id]? = some (t.slot parent) := by
  rw [built.id_eq_length, Node.slots, List.append_assoc, List.append_assoc,
    List.getElem?_append_right (Nat.le_add_right _ _), Nat.add_sub_cancel_left,
    List.getElem?_append_right (Nat.le_refl _), Nat.sub_self]
  rfl

/-- The levels of the root are read off its slot, whatever has been stored behind it. -/
theorem height_slots (parent : Option Nat) (built : t.Built base.length) (back : List Slot) :
    height ⟨base ++ t.slots parent ++ back⟩ t.id = t.height := by
  rw [height, getElem?_slots parent built back]
  exact t.height_slot parent

/-- Changing the root of a tree changes the last node of its stretch. -/
theorem modify_slots (parent : Option Nat) (built : t.Built base.length) (back : List Slot)
    (f : Slot → Slot) :
    modify ⟨base ++ t.slots parent ++ back⟩ t.id f =
      ⟨base ++ (t.slotsBelow ++ [f (t.slot parent)]) ++ back⟩ := by
  have split (slot : Slot) : base ++ (t.slotsBelow ++ [slot]) ++ back =
      base ++ t.slotsBelow ++ slot :: back := by simp
  rw [modify, Node.slots, split, split, built.id_eq_length, ← List.length_append,
    modify_append_cons]

/-- The same at the end of an arena. -/
theorem modify_last (parent : Option Nat) (built : t.Built base.length) (f : Slot → Slot) :
    modify ⟨base ++ t.slots parent⟩ t.id f = ⟨base ++ (t.slotsBelow ++ [f (t.slot parent)])⟩ := by
  have changed := modify_slots parent built [] f
  rwa [List.append_nil, List.append_nil] at changed

/-- The levels of a subtree that was stored last. -/
theorem height_last (parent : Option Nat) (built : t.Built base.length) :
    height ⟨base ++ t.slots parent⟩ t.id = t.height := by
  have levels := height_slots parent built []
  rwa [List.append_nil] at levels

/-- A triple that is stored behind its operands is the root of a tree, and both name it. -/
theorem triple_eq (hl : left.Built base.length) (hr : right.Built (base.length + left.count))
    (b : Boolean) {n : Nat} (next : n = base.length + left.count + right.count) :
    triple ⟨base ++ left.slots none ++ right.slots none⟩ left.id b right.id =
      (n, ⟨base ++ (Node.triple { id := n, height := 1 + max left.height right.height } left b
        right).slots none⟩) := by
  have hr' : right.Built (base ++ left.slots none).length := by
    rwa [List.length_append, Node.length_slots]
  have heights : height ⟨base ++ left.slots none ++ right.slots none⟩ left.id = left.height ∧
      height ⟨base ++ left.slots none ++ right.slots none⟩ right.id = right.height :=
    ⟨height_slots none hl _, height_last none hr'⟩
  have length : (base ++ left.slots none ++ right.slots none).length = n := by
    rw [List.length_append, List.length_append, Node.length_slots, Node.length_slots, next]
  have named (t : Node) : { t.slot none with parent := some n } = t.slot (some n) := by
    cases t <;> rfl
  simp only [triple, push, heights, length]
  -- First the left operand learns of the triple behind it, then the right one.
  rw [List.append_assoc (base ++ left.slots none), modify_slots none hl, named]
  have hr'' : right.Built (base ++ left.slots (some n)).length := by
    rwa [List.length_append, Node.length_slots]
  rw [← List.append_assoc, ← Node.slots, modify_slots none hr'', named]
  simp [Node.slots, Node.slotsBelow, Node.slot]

end Arena

/-! ### Walks -/

/-- Whether all nodes of a tree are stored under their numbers, each with the number of the one above
    it. -/
def Node.Stored (a : Arena) : Option Nat → Node → Prop
  | parent, .clause info c => a.nodes[info.id]? = some ((Node.clause info c).slot parent)
  | parent, .triple info left b right =>
    a.nodes[info.id]? = some ((Node.triple info left b right).slot parent) ∧
      left.Stored a (some info.id) ∧ right.Stored a (some info.id)

namespace Node

variable {a : Arena} {t : Node} {parent : Option Nat}

/-- By induction on the tree: the left operand is followed by the right one and the triple, the
    right operand by the triple, and the triple by `back`. -/
theorem stored_slots {base : List Slot} (parent : Option Nat) (built : t.Built base.length)
    (back : List Slot) :
    t.Stored ⟨base ++ t.slots parent ++ back⟩ parent := by
  have here := Arena.getElem?_slots parent built back
  induction t generalizing base back parent with
  | clause info c => exact here
  | triple info left b right ih ih' =>
    obtain ⟨hl, hr, -⟩ := built
    refine ⟨here, ?_, ?_⟩
    · have split : base ++ (triple info left b right).slots parent ++ back = base ++
          left.slots (some info.id) ++ (right.slots (some info.id) ++
            [(triple info left b right).slot parent] ++ back) := by
        simp [slots, slotsBelow]
      rw [split]
      exact ih _ hl _ (Arena.getElem?_slots _ hl _)
    · have split : base ++ (triple info left b right).slots parent ++ back = base ++
          left.slots (some info.id) ++ right.slots (some info.id) ++
            ([(triple info left b right).slot parent] ++ back) := by
        simp [slots, slotsBelow]
      have hr : right.Built (base ++ left.slots (some info.id)).length := by
        rwa [List.length_append, length_slots]
      rw [split]
      exact ih' _ hr _ (Arena.getElem?_slots _ hr _)

/-- The slot of the root. -/
theorem Stored.getElem?_id (h : t.Stored a parent) : a.nodes[t.id]? = some (t.slot parent) := by
  cases t with
  | clause info c => exact h
  | triple info left b right => exact h.1

theorem Stored.kind?_id (h : t.Stored a parent) : a.kind? t.id = some (t.slot parent).kind := by
  rw [Arena.kind?, h.getElem?_id]
  rfl

/-- The root of a subtree names the node above it. -/
theorem Stored.parent?_id (h : t.Stored a parent) : a.parent? t.id = parent := by
  rw [Arena.parent?, h.getElem?_id]
  exact t.parent_slot parent

theorem Stored.height_id (h : t.Stored a parent) : a.height t.id = t.height := by
  rw [Arena.height, h.getElem?_id]
  exact t.height_slot parent

/-- A triple names its operands. -/
theorem Stored.children_id (h : t.Stored a parent) : a.children t.id = t.children.map Node.id := by
  rw [Arena.children, h.kind?_id]
  cases t <;> rfl

/-- An operand is stored below the number of its triple. -/
theorem Stored.of_mem_children (h : t.Stored a parent) {child : Node} (below : child ∈ t.children) :
    child.Stored a (some t.id) := by
  cases t with
  | clause info c => cases below
  | triple info left b right =>
    simp only [children, List.mem_cons, List.not_mem_nil, or_false] at below
    obtain rfl | rfl := below
    · exact h.2.1
    · exact h.2.2

/-- The tree is read back from an arena that it is stored in. -/
theorem Stored.tree?_id (h : t.Stored a parent) {fuel : Nat} (enough : t.count ≤ fuel) :
    a.tree? fuel t.id = some t := by
  induction t generalizing parent fuel with
  | clause info c =>
    obtain ⟨fuel, rfl⟩ := Nat.exists_eq_succ_of_ne_zero (Nat.ne_of_gt enough)
    rw [Arena.tree?, h.getElem?_id]
    rfl
  | triple info left b right ih ih' =>
    rw [count] at enough
    obtain ⟨fuel, rfl⟩ : ∃ n, fuel = n + 1 := ⟨fuel - 1, by omega⟩
    rw [Arena.tree?, h.getElem?_id]
    have enough_left : left.count ≤ fuel := by omega
    have enough_right : right.count ≤ fuel := by omega
    change (do
      let l ← a.tree? fuel left.id
      let r ← a.tree? fuel right.id
      return triple info l b r) = some (triple info left b right)
    rw [ih h.2.1 enough_left, ih' h.2.2 enough_right]
    rfl

/-- The clauses that a walk from a node on collects, if it may take as many steps down as there are
    nodes. -/
theorem Stored.clauses_id (h : t.Stored a parent) {fuel : Nat} (enough : t.count ≤ fuel) :
    a.clauses fuel t.id = t.clauses := by
  induction t generalizing parent fuel with
  | clause info c =>
    obtain ⟨fuel, rfl⟩ := Nat.exists_eq_succ_of_ne_zero (Nat.ne_of_gt enough)
    rw [Arena.clauses, h.kind?_id]
    rfl
  | triple info left b right ih ih' =>
    rw [count] at enough
    obtain ⟨fuel, rfl⟩ : ∃ n, fuel = n + 1 := ⟨fuel - 1, by omega⟩
    have enough_left : left.count ≤ fuel := by omega
    have enough_right : right.count ≤ fuel := by omega
    rw [Arena.clauses, h.kind?_id, clauses, ← ih h.2.1 enough_left, ← ih' h.2.2 enough_right]
    rfl

end Node

end ContextualQuery
