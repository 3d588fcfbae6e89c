import ContextualQuery.Proofs.PrefixMap
import ContextualQuery.Proofs.Reading.Text

/-! How the nodes of a query are laid out.

    Nodes are numbered when they are created, a triple behind its two operands, while declarations and
    sort keys are attached later. So the numbers of a tree that was read count its nodes in the order
    left operand, right operand, triple, and nothing else was created on the way (`Node.Built`). So a
    node has a larger number than those below it. -/

namespace ContextualQuery

open Reading

/-! ### Nodes of a tree -/

/-- The number of nodes of a tree. -/
def Node.count : Node → Nat
  | .clause _ _ => 1
  | .triple _ left _ right => left.count + right.count + 1

/-- The number of levels of a tree. -/
def Node.levels : Node → Nat
  | .clause _ _ => 1
  | .triple _ left _ right => 1 + max left.levels right.levels

/-- The nodes of a tree, each behind those below it and left before right. -/
def Node.postorder : Node → List Node
  | .clause info c => [.clause info c]
  | .triple info left boolean right =>
    left.postorder ++ right.postorder ++ [.triple info left boolean right]

/-- The nodes directly below a node. -/
def Node.children : Node → List Node
  | .clause _ _ => []
  | .triple _ left _ right => [left, right]

/-- The clause at a leaf. -/
def Node.clause? : Node → Option Clause
  | .clause _ c => some c
  | .triple .. => none

theorem Node.count_pos (t : Node) : 0 < t.count := by
  cases t <;> simp [count]

/-- A tree with `n` clauses has `n - 1` triples. -/
theorem Node.length_clauses (t : Node) : t.count + 1 = 2 * t.clauses.length := by
  induction t with
  | clause info c => rfl
  | triple info left b right ih ih' =>
    rw [count, clauses, List.length_append]
    omega

/-- Places list the nodes from the root down, post-order from the leaves up. -/
theorem Node.map_places (t : Node) (parent : Option Nat) (around : Scope) :
    ((t.places parent around).map (·.node)).Perm t.postorder := by
  induction t generalizing parent around with
  | clause info c => exact .refl _
  | triple info left b right ih ih' =>
    rw [places, postorder, List.map_cons, List.map_append]
    exact (List.perm_append_singleton _ _).symm.trans (((ih _ _).append (ih' _ _)).append_right _)

/-! ### Numbers and levels -/

/-- Whether a tree is numbered from `n` on in the order of creation and knows its levels, all
    declared names being in lower case. -/
def Node.Built : Node → Nat → Prop
  | .clause info _, n => info.id = n ∧ info.height = 1 ∧ info.prefixes.Lower
  | .triple info left _ right, n =>
    left.Built n ∧ right.Built (n + left.count) ∧ info.id = n + left.count + right.count ∧
      info.height = 1 + max left.height right.height ∧ info.prefixes.Lower

/-- A phrase builds as many nodes as it has clauses and booleans. -/
theorem count_build (p : Phrase) (n : Nat) : (p.build n).count = p.size := by
  induction p generalizing n with
  | clause c => rfl
  | join left b right ih ih' => rw [Phrase.build, Node.count, ih, ih', Phrase.size]
  | sort body keys ih =>
    rw [Phrase.build, Phrase.size, ← ih n]
    cases body.build n <;> rfl
  | scope group body ih =>
    rw [Phrase.build, Phrase.size, ← ih n]
    cases body.build n <;> rfl

/-- Sort keys that are attached late leave the numbers alone. -/
theorem Node.Built.sortBy {t : Node} {n : Nat} (h : t.Built n) (keys : List Index) :
    (t.sortBy keys).Built n := by
  cases t <;> exact h

/-- So do declarations. -/
theorem Node.Built.declare {t : Node} {n : Nat} (h : t.Built n) (group : PrefixMap) :
    (t.declare group).Built n := by
  cases t with
  | clause info c =>
    obtain ⟨id, height, lower⟩ := h
    exact ⟨id, height, lower.withDefaults group⟩
  | triple info left b right =>
    obtain ⟨hl, hr, id, height, lower⟩ := h
    exact ⟨hl, hr, id, height, lower.withDefaults group⟩

/-- By induction on the phrase: a triple is numbered behind both operands, and scopes and sort keys
    create no node. -/
theorem built_build (p : Phrase) (n : Nat) : (p.build n).Built n := by
  induction p generalizing n with
  | clause c => exact ⟨rfl, rfl, PrefixMap.lower_empty⟩
  | join left b right ih ih' =>
    rw [Phrase.build, Node.Built, count_build, count_build, height_build, height_build]
    exact ⟨ih n, ih' _, rfl, rfl, PrefixMap.lower_empty⟩
  | sort body keys ih => exact (ih n).sortBy keys
  | scope group body ih => exact (ih n).declare _

namespace Node.Built

variable {t : Node} {n : Nat} {parent : Option Nat} {around : Scope} {place : Place}

/-- The root of a tree has the last of its numbers. -/
theorem id_eq (h : t.Built n) : t.id + 1 = n + t.count := by
  cases t with
  | clause info c => rw [id, Node.info, h.1, count]
  | triple info left b right =>
    rw [id, Node.info, h.2.2.1, count]
    omega

/-- The levels that a node knows are those below it. -/
theorem height_eq (h : t.Built n) : t.height = t.levels := by
  induction t generalizing n with
  | clause info c => exact h.2.1
  | triple info left b right ih ih' =>
    obtain ⟨left, right, -, height, -⟩ := h
    rw [Node.height, Node.info, height, ih left, ih' right, levels]

/-- The numbers of a tree in post-order are consecutive. -/
theorem ids_postorder (h : t.Built n) : t.postorder.map Node.id = List.range' n t.count := by
  induction t generalizing n with
  | clause info c =>
    rw [postorder, List.map_singleton, id, Node.info, h.1, count, List.range'_one]
  | triple info left b right ih ih' =>
    obtain ⟨hl, hr, here, -⟩ := h
    rw [postorder, List.map_append, List.map_append, ih hl, ih' hr, List.map_singleton, id, Node.info,
      here, count, List.range'_1_concat, ← List.range'_append_1, Nat.add_assoc]

/-- Subtrees are numbered in the order of creation, too. -/
theorem of_mem_places (h : t.Built n) (mem : place ∈ t.places parent around) :
    ∃ m, place.node.Built m := by
  induction t generalizing n parent around with
  | clause info c =>
    obtain rfl := List.mem_singleton.1 mem
    exact ⟨n, h⟩
  | triple info left b right ih ih' =>
    obtain rfl | mem := List.mem_cons.1 mem
    · exact ⟨n, h⟩
    · obtain mem | mem := List.mem_append.1 mem
      · exact ih h.1 mem
      · exact ih' h.2.1 mem

/-- The nodes below a node have smaller numbers. -/
theorem id_lt (h : t.Built n) {child : Node} (below : child ∈ t.children) : child.id < t.id := by
  cases t with
  | clause info c => cases below
  | triple info left b right =>
    obtain ⟨hl, hr, here, -⟩ := h
    have hl := hl.id_eq
    have hr := hr.id_eq
    have some_right := right.count_pos
    rw [id.eq_def (.triple ..), Node.info, here]
    simp only [children, List.mem_cons, List.not_mem_nil, or_false] at below
    obtain rfl | rfl := below <;> omega

end Node.Built

/-! ### Places -/

theorem Node.places_root (t : Node) (parent : Option Nat) (around : Scope) :
    ⟨t, parent, around⟩ ∈ t.places parent around := by
  cases t <;> simp [places]

section
variable {info : NodeInfo} {b : Boolean} {left right : Node} {parent : Option Nat} {around : Scope}
  {place : Place}

theorem Node.mem_places_left
    (h : place ∈ left.places (some info.id) (around.enter info.prefixes)) :
    place ∈ (Node.triple info left b right).places parent around :=
  List.mem_cons_of_mem _ (List.mem_append_left _ h)

theorem Node.mem_places_right
    (h : place ∈ right.places (some info.id) (around.enter info.prefixes)) :
    place ∈ (Node.triple info left b right).places parent around :=
  List.mem_cons_of_mem _ (List.mem_append_right _ h)

end

/-- What holds of the topmost place, and of the places below whenever it holds of one, holds of all
    places of a tree. -/
theorem Node.forall_places {motive : Place → Prop} {t : Node} {parent : Option Nat} {around : Scope}
    (top : motive ⟨t, parent, around⟩)
    (below : ∀ above ∈ t.places parent around, motive above → ∀ child ∈ above.node.children,
      motive ⟨child, some above.node.id, above.scope⟩) :
    ∀ place ∈ t.places parent around, motive place := by
  induction t generalizing parent around with
  | clause info c =>
    intro place mem
    obtain rfl := List.mem_singleton.1 mem
    exact top
  | triple info left b right ih ih' =>
    intro place mem
    have here := places_root (.triple info left b right) parent around
    obtain rfl | mem := List.mem_cons.1 mem
    · exact top
    · obtain mem | mem := List.mem_append.1 mem
      · exact ih (below _ here top left (by simp [children]))
          (fun above mem => below above (mem_places_left mem)) place mem
      · exact ih' (below _ here top right (by simp [children]))
          (fun above mem => below above (mem_places_right mem)) place mem

/-- Every place but the topmost is that of a child, below the place of the node it names. -/
theorem exists_above {t : Node} {parent : Option Nat} {around : Scope} {place : Place}
    (mem : place ∈ t.places parent around) : place = ⟨t, parent, around⟩ ∨
      ∃ above ∈ t.places parent around, place.parent = some above.node.id ∧
        place.node ∈ above.node.children := by
  refine Node.forall_places (motive := fun place => place = ⟨t, parent, around⟩ ∨
    ∃ above ∈ t.places parent around, place.parent = some above.node.id ∧
      place.node ∈ above.node.children) (.inl rfl) (fun above mem _ child below => ?_) place mem
  exact .inr ⟨above, mem, rfl, below⟩

/-! ### Queries -/

/-- The nodes of a whole query have the numbers up to its size. -/
theorem Query.numbered_of_built {q : Query} (built : q.root.Built 0) (count : q.root.count = q.size) :
    q.root.postorder.map Node.id = List.range q.size := by
  rw [built.ids_postorder, count, List.range_eq_range']

end ContextualQuery
