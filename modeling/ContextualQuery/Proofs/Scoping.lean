import ContextualQuery.Proofs.PrefixMap
import ContextualQuery.Proofs.Reading.Text
import Mathlib.Data.List.Nodup

/-! Short names are scoped lexically.

    The tree of a query keeps declarations at its nodes, and several groups may end up at one node.
    Still a clause sees exactly the groups that were open when it was read, innermost first
    (`resolve_eq_declaredIn`). What carries this is the table of meanings at the clauses of a tree
    (`Node.meanings`): attaching a group to a node does to it what opening the group does. -/

namespace ContextualQuery

open Unicode (lowercase)

/-- What short names stand for. -/
abbrev Meaning := String → Option String

/-- What a name is declared to be in the open groups: the innermost group that declares it counts,
    and in a group the last declaration of it. -/
def declaredIn (groups : List Declarations) : Meaning :=
  fun name => groups.findSome? fun group => group.reverse.lookup (lowercase name)

/-- Whether all names of a group are in lower case. -/
def Declarations.Lower (group : Declarations) : Prop := ∀ d ∈ group, lowercase d.1 = d.1

/-! ### Declarations as they are read -/

theorem lookup_reverse_eq_find? (name : String) (pairs : List (String × String))
    (lower : ∀ p ∈ pairs, lowercase p.1 = p.1) :
    pairs.lookup (lowercase name) =
      (pairs.find? fun p => lowercase name = lowercase p.1).map (·.2) := by
  induction pairs with
  | nil => rfl
  | cons p pairs ih =>
    rw [Dictionary.lookup_cons_entry, ih fun q hq => lower q (List.mem_cons_of_mem _ hq),
      List.find?_cons, lower p List.mem_cons_self]
    by_cases same : lowercase name = p.1 <;> simp [same]

theorem get?_ofList_lower {group : Declarations} (lower : group.Lower) (name : String) :
    (PrefixMap.ofList group).get? name = group.reverse.lookup (lowercase name) := by
  rw [PrefixMap.get?_ofList, lookup_reverse_eq_find? name group.reverse]
  exact fun p hp => lower p (List.mem_reverse.1 hp)

/-- Whether all names declared in a phrase are in lower case. -/
def Phrase.Lower : Phrase → Prop
  | .clause _ => True
  | .join left _ right => left.Lower ∧ right.Lower
  | .sort body _ => body.Lower
  | .scope group body => Declarations.Lower group ∧ body.Lower

theorem lower_of_groupSpelling {rules : Rules} {u : List Token} {next : Option Token}
    {group : Declarations} (h : GroupSpelling rules u next group) : Declarations.Lower group := by
  obtain ⟨written, -⟩ := h
  induction written with
  | nil => simp [Declarations.Lower]
  | cons first _ ih =>
    intro d hd
    rcases List.mem_cons.1 hd with rfl | hd
    · exact first.lower
    · exact ih d hd

theorem lower_hereditary {rules : Rules} : Hereditary rules (fun _ => True) Phrase.Lower where
  clause _ _ := trivial
  join _ _ first second := ⟨first, second⟩
  sort _ _ below := below
  scope _ declared below := ⟨lower_of_groupSpelling declared, below⟩

/-- What a phrase behind `left` declares in lower case, if `left` does. -/
theorem Spells.lower {rules : Rules} {part : Part} {u : List Token} {next : Option Token}
    {p : Phrase} (h : Spells rules part u next p) : (∀ left, part = .links left → left.Lower) →
      p.Lower :=
  lower_hereditary.holds h (by simp)

/-! ### Meanings at clauses -/

/-- The number of each clause of a tree from left to right, and what short names stand for there,
    given what they stand for outside. -/
def Node.meanings (outside : Meaning) : Node → List (Nat × Meaning)
  | .clause info _ => [(info.id, fun name => (info.prefixes.get? name).or (outside name))]
  | .triple info left _ right =>
    let inside : Meaning := fun name => (info.prefixes.get? name).or (outside name)
    left.meanings inside ++ right.meanings inside

/-- A group attached to a tree is to its clauses what an open group is to them. -/
theorem Node.meanings_declare {group : PrefixMap} (lower : group.Lower) (outside : Meaning)
    (t : Node) :
    (t.declare group).meanings outside =
      t.meanings fun name => (group.get? name).or (outside name) := by
  cases t <;>
    simp [Node.declare, Node.mapInfo, Node.meanings, PrefixMap.get?_withDefaults _ lower,
      Option.or_assoc]

theorem Node.meanings_sortBy (keys : List Index) (outside : Meaning) (t : Node) :
    (t.sortBy keys).meanings outside = t.meanings outside := by
  cases t <;> rfl

theorem meanings_build {p : Phrase} (lower : p.Lower) (groups : List Declarations) (n : Nat) :
    (p.build n).meanings (declaredIn groups) =
      (p.notes groups n).map fun note => (note.clause, declaredIn note.groups) := by
  induction p generalizing groups n with
  | clause c => rfl
  | join left b right ih ih' =>
    obtain ⟨lower, lower'⟩ := lower
    simp only [Phrase.build, Phrase.notes, Node.meanings, List.map_append, PrefixMap.get?_empty,
      Option.none_or, ih lower, ih' lower']
  | sort body keys ih => rw [Phrase.build, Node.meanings_sortBy, ih lower, Phrase.notes]
  | scope group body ih =>
    obtain ⟨lower, lower'⟩ := lower
    have opened : (fun name => ((PrefixMap.ofList group).get? name).or (declaredIn groups name)) =
        declaredIn (group :: groups) := by
      funext name
      rw [get?_ofList_lower lower, declaredIn, declaredIn, List.findSome?_cons]
      cases group.reverse.lookup (lowercase name) <;> rfl
    rw [Phrase.build, Node.meanings_declare (PrefixMap.lower_ofList group), opened, ih lower',
      Phrase.notes]

/-! ### Places -/

/-- Whether a node is a leaf. -/
def Node.isClause : Node → Bool
  | .clause .. => true
  | .triple .. => false

/-- What short names are declared to stand for in a scope. -/
def Scope.declared (s : Scope) : Meaning := fun name => s.enclosing.findSome? (·.get? name)

theorem Scope.declared_enter (s : Scope) (group : PrefixMap) :
    (s.enter group).declared = fun name => (group.get? name).or (s.declared name) := by
  funext name
  rw [declared, enter, List.findSome?_cons]
  cases group.get? name <;> rfl

theorem meanings_eq_places (t : Node) (parent : Option Nat) (around : Scope) :
    t.meanings around.declared =
      ((t.places parent around).filter (·.node.isClause)).map fun place =>
        (place.node.id, place.scope.declared) := by
  induction t generalizing parent around with
  | clause info c => simp [Node.meanings, Node.places, Node.isClause, Place.scope, Node.id,
      Node.info, Node.prefixes, Scope.declared_enter]
  | triple info left b right ih ih' =>
    simp only [Node.meanings, ← Scope.declared_enter, ih (some info.id), ih' (some info.id)]
    simp [Node.places, Node.isClause]

theorem defaults_of_mem_places {t : Node} {parent : Option Nat} {around : Scope} {place : Place}
    (h : place ∈ t.places parent around) : place.scope.defaults = around.defaults := by
  induction t generalizing parent around with
  | clause info c =>
    obtain rfl := List.mem_singleton.1 h
    rfl
  | triple info left b right ih ih' =>
    rcases List.mem_cons.1 h with rfl | h
    · rfl
    · rcases List.mem_append.1 h with h | h
      · exact (ih h).trans rfl
      · exact (ih' h).trans rfl

/-- The numbers of the nodes of a tree, each before those below it. -/
def Node.ids : Node → List Nat
  | .clause info _ => [info.id]
  | .triple info left _ right => info.id :: (left.ids ++ right.ids)

theorem ids_eq_places (t : Node) (parent : Option Nat) (around : Scope) :
    (t.places parent around).map (·.node.id) = t.ids := by
  induction t generalizing parent around with
  | clause info c => rfl
  | triple info left b right ih ih' =>
    rw [Node.places, List.map_cons, List.map_append, ih, ih']
    rfl

theorem Node.ids_sortBy (keys : List Index) (t : Node) : (t.sortBy keys).ids = t.ids := by
  cases t <;> rfl

theorem Node.ids_declare (group : PrefixMap) (t : Node) : (t.declare group).ids = t.ids := by
  cases t <;> rfl

/-- The nodes of a phrase are numbered from `n` on without a gap. -/
theorem ids_build_perm (p : Phrase) (n : Nat) : (p.build n).ids.Perm (List.range' n p.size) := by
  induction p generalizing n with
  | clause c => exact .refl _
  | sort body keys ih =>
    rw [Phrase.build, Node.ids_sortBy]
    exact ih n
  | scope group body ih =>
    rw [Phrase.build, Node.ids_declare]
    exact ih n
  | join left b right ih ih' =>
    have parts : List.range' n (left.size + right.size + 1) =
        List.range' n left.size ++ List.range' (n + left.size) right.size ++
          [n + left.size + right.size] := by
      rw [List.range'_1_concat, ← List.range'_append_1, Nat.add_assoc]
    rw [Phrase.build, Node.ids, Phrase.size, parts]
    exact (List.perm_append_singleton _ _).symm.trans
      (((ih n).append (ih' (n + left.size))).append_right _)

/-- A short name stands, at every clause of a query, for what the groups of declarations that were
    open when the clause was read declare it to be; failing that, for what the language reserves it
    for; failing that, for what the rules assume. -/
theorem resolve_eq_declaredIn {rules : Rules} {source : String} {q : Query}
    (read : parse rules source = .ok q) :
    ∃ notes, observe rules source = .ok (q, notes) ∧
      (q.places.filter (·.node.isClause)).map (·.node.id) = notes.map (·.clause) ∧
      (q.places.map (·.node.id)).Nodup ∧
      ∀ place ∈ q.places, ∀ note ∈ notes, place.node.id = note.clause →
        ∀ name, place.scope.resolve name = (declaredIn note.groups name).or
          ((ContextSet.reserved? (lowercase name)).or (rules.defaultPrefixes.get? name)) := by
  obtain ⟨ts, p, lexed, spelled, fits, rfl⟩ := parse_eq_ok.1 read
  refine ⟨p.notes [] 0, observe_eq_ok.2 ⟨ts, p, lexed, spelled, fits, rfl, rfl⟩, ?_⟩
  let q : Query := ⟨source, p.build 0, p.size, rules.defaultPrefixes⟩
  -- At each clause the maps on the way up say what the groups that were open there say together.
  have clauses : (q.places.filter (·.node.isClause)).map (fun place =>
      (place.node.id, place.scope.declared)) =
        (p.notes [] 0).map fun note => (note.clause, declaredIn note.groups) := by
    rw [← meanings_build (spelled.lower (by simp)) [] 0]
    exact (meanings_eq_places (p.build 0) none q.scope).symm
  have distinct : (q.places.map (·.node.id)).Nodup := by
    rw [Query.places, ids_eq_places]
    exact (ids_build_perm p 0).nodup_iff.2 List.nodup_range'
  refine ⟨?_, distinct, ?_⟩
  · have numbers := congrArg (List.map Prod.fst) clauses
    rwa [List.map_map, List.map_map] at numbers
  · intro place hplace note hnote same name
    have known : (note.clause, declaredIn note.groups) ∈
        (q.places.filter (·.node.isClause)).map fun place => (place.node.id, place.scope.declared) :=
      clauses ▸ List.mem_map_of_mem hnote
    obtain ⟨place', hplace', equal⟩ := List.mem_map.1 known
    obtain ⟨id, seen⟩ := Prod.mk.inj equal
    -- Numbers are distinct, so the note of a clause belongs to one place.
    obtain rfl : place = place' :=
      List.inj_on_of_nodup_map distinct hplace (List.mem_filter.1 hplace').1 (same.trans id.symm)
    rw [← seen, Scope.resolve, defaults_of_mem_places hplace]
    rfl

/-- Two groups end up at the clause in the inner parentheses; the one in between is empty. The reserved
    name `dc` is declared there, and means what it is reserved for behind the parentheses. -/
theorem resolve_inside_doubled_parentheses :
    ∃ q notes, observe {} ">a=\"x\" ((>b=\"y\" >dc=\"z\" c = d)) and e = f" = .ok (q, notes) ∧
      (notes.map fun note => (note.clause, note.groups)) =
        [(0, [[("b", "y"), ("dc", "z")], [], [("a", "x")]]), (1, [[("a", "x")]])] ∧
      (∀ place ∈ q.places, ∀ note ∈ notes, place.node.id = note.clause →
        ∀ name, place.scope.resolve name = (declaredIn note.groups name).or
          ((ContextSet.reserved? (lowercase name)).or (({} : Rules).defaultPrefixes.get? name))) ∧
      (∀ place ∈ q.places, place.node.id = 0 →
        place.scope.resolve "DC" = some "z" ∧ place.scope.resolve "A" = some "x") ∧
      ∀ place ∈ q.places, place.node.id = 1 →
        place.scope.resolve "DC" = some ContextSet.dublinCore ∧ place.scope.resolve "b" = none := by
  obtain ⟨q, read⟩ := exists_eq_ok
    (show (parse {} ">a=\"x\" ((>b=\"y\" >dc=\"z\" c = d)) and e = f").isOk = true by decide +kernel)
  have open_groups : ((observe {} ">a=\"x\" ((>b=\"y\" >dc=\"z\" c = d)) and e = f").toOption.map
      fun found => found.2.map fun note => (note.clause, note.groups)) =
        some [(0, [[("b", "y"), ("dc", "z")], [], [("a", "x")]]), (1, [[("a", "x")]])] := by
    decide +kernel
  obtain ⟨notes, observed, -, -, resolved⟩ := resolve_eq_declaredIn read
  rw [observed] at open_groups
  have groups := Option.some.inj open_groups
  have at_clause (clause : Nat) (open_there : List Declarations)
      (mem : (clause, open_there) ∈ notes.map fun note => (note.clause, note.groups))
      (place : Place) (hplace : place ∈ q.places) (id : place.node.id = clause) (name : String) :
      place.scope.resolve name = (declaredIn open_there name).or
        ((ContextSet.reserved? (lowercase name)).or (({} : Rules).defaultPrefixes.get? name)) := by
    obtain ⟨note, hnote, equal⟩ := List.mem_map.1 mem
    obtain ⟨rfl, rfl⟩ := Prod.mk.inj equal
    exact resolved place hplace note hnote id name
  refine ⟨q, notes, observed, groups, resolved, fun place hplace id => ?_, fun place hplace id => ?_⟩
  · have meaning := at_clause 0 _ (groups ▸ List.mem_cons_self) place hplace id
    rw [meaning, meaning]
    decide +kernel
  · have meaning := at_clause 1 _ (groups ▸ List.mem_cons_of_mem _ List.mem_cons_self) place hplace id
    rw [meaning, meaning]
    decide +kernel

end ContextualQuery
