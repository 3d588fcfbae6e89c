import ContextualQuery.Proofs.Reading.Phrase
import ContextualQuery.Query.JsonView
import ContextualQuery.Search.Compile

/-! What does not depend on how nodes are numbered, nor on how a scope is made up.

    The tree of a phrase is the same whatever number it starts with, up to a shift of all numbers
    (`build_add`). Its data do not show the numbers, and its search string depends on a scope only
    through what names stand for in it. -/

namespace ContextualQuery

/-- A tree with all numbers raised. -/
def Node.shift (k : Nat) : Node → Node
  | .clause info c => .clause { info with id := info.id + k } c
  | .triple info left boolean right =>
    .triple { info with id := info.id + k } (left.shift k) boolean (right.shift k)

theorem Node.shift_sortBy (k : Nat) (keys : List Index) (t : Node) :
    (t.sortBy keys).shift k = (t.shift k).sortBy keys := by
  cases t <;> rfl

/-- Declarations are not numbered. -/
theorem Node.shift_declare (k : Nat) (group : PrefixMap) (t : Node) :
    (t.declare group).shift k = (t.shift k).declare group := by
  cases t <;> rfl

/-- Building from a later number gives the same tree with later numbers. -/
theorem Phrase.build_add (p : Phrase) (n k : Nat) : p.build (n + k) = (p.build n).shift k := by
  induction p generalizing n with
  | clause c => rfl
  | join left b right ih ih' =>
    have right_eq : right.build (n + k + left.size) = (right.build (n + left.size)).shift k := by
      rw [← ih', Nat.add_right_comm]
    simp only [build, Node.shift, ih, right_eq, Node.triple.injEq, NodeInfo.mk.injEq, and_true]
    omega
  | sort body keys ih => rw [build, build, Node.shift_sortBy, ih]
  | scope group body ih => rw [build, build, Node.shift_declare, ih]

@[simp] theorem Node.prefixes_sortBy (keys : List Index) (t : Node) :
    (t.sortBy keys).prefixes = t.prefixes := by
  cases t <;> rfl

@[simp] theorem Node.prefixes_declare (group : PrefixMap) (t : Node) :
    (t.declare group).prefixes = t.prefixes.withDefaults group := by
  cases t <;> rfl

@[simp] theorem Node.declare_empty (t : Node) : t.declare .empty = t := by
  cases t <;> rfl

/-- The value of a tree does not show numbers. -/
theorem Node.json_shift (k : Nat) (t : Node) : (t.shift k).json = t.json := by
  induction t with
  | clause info c => rfl
  | triple info left b right ih ih' =>
    rw [shift, json, json, ih, ih']
    rfl

/-- The innermost group is asked first. -/
theorem Scope.resolve_enter (s : Scope) (group : PrefixMap) (name : String) :
    (s.enter group).resolve name = (group.get? name).or (s.resolve name) := by
  rw [resolve, enter, List.findSome?_cons]
  cases group.get? name <;> rfl

/-- The search string of a tree depends on what names stand for, and on nothing else in a scope. -/
theorem Node.compile_congr (names : FieldNames) (t : Node) {s s' : Scope}
    (same : ∀ name, s.resolve name = s'.resolve name) : t.compile names s = t.compile names s' := by
  induction t generalizing s s' with
  | clause info c =>
    rw [compile, compile, Clause.compile, Clause.compile, Scope.resolve_enter, Scope.resolve_enter,
      same]
  | triple info left b right ih ih' =>
    have inner (name : String) :
        (s.enter info.prefixes).resolve name = (s'.enter info.prefixes).resolve name := by
      rw [Scope.resolve_enter, Scope.resolve_enter, same]
    rw [compile, compile, ih inner, ih' inner]

/-- Nor does what it is compiled to. -/
theorem Node.compile_shift (names : FieldNames) (k : Nat) (t : Node) (s : Scope) :
    (t.shift k).compile names s = t.compile names s := by
  induction t generalizing s with
  | clause info c => rfl
  | triple info left b right ih ih' =>
    rw [shift, compile, compile, ih, ih']
    rfl

end ContextualQuery
