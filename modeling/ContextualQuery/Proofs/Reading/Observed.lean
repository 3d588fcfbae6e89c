import ContextualQuery.Proofs.Reading.Phrase
import ContextualQuery.Query.Session

/-! Reading under observation.

    The same reading as that of trees, step by step, which keeps the declarations of the open groups
    as they are written and notes at every clause which groups are open. Leaving the notes out gives
    the reading of trees back (`node_observedTree`). -/

namespace ContextualQuery

/-- A tree and what was noted when it was read. -/
structure Observed where
  node : Node
  notes : List Note

namespace Reading

variable {rules : Rules} {α β : Type}

/-- Trees with notes. Declarations are kept as they are written. -/
def observing : Script.Builder Reading Observed Declarations where
  none := []
  add group name identifier := group ++ [(name, identifier)]
  declared := .ofList
  clause groups c := do
    let node ← newClause c
    return { node, notes := [⟨node.id, groups⟩] }
  triple left boolean right := do
    let node ← newTriple left.node boolean right.node
    return { node, notes := left.notes ++ right.notes }
  height x := return x.node.height
  sortBy x keys := return { x with node := x.node.sortBy keys }
  declare x group := return { x with node := x.node.declare (.ofList group) }
  outer groups := return groups.map fun group => (PrefixMap.ofList group).names
  within _ inner := inner

/-- The tree of a whole query with notes on it. -/
def observedTree (rules : Rules) : Reading Observed := Script.whole rules observing rules.maxDepth

/-- A whole query and the notes on its clauses, in the order in which they are read. -/
def observedQuery (rules : Rules) (source : String) : Reading (Query × List Note) := do
  let whole ← observedTree rules
  let size ← Script.Numbers.size
  return ({ source, root := whole.node, size, defaults := rules.defaultPrefixes }, whole.notes)

end Reading

/-- The query that a text is, and the notes on its clauses. -/
def observe (rules : Rules) (source : String) : Except Diagnostic (Query × List Note) := do
  let session ← Session.start rules.wordChars source
  match (Reading.observedQuery rules source).run session.state with
  | .ok found _ => .ok found
  | .error fault _ => .error (fault.diagnostic source)

namespace Reading

/-! ### Without the notes -/

theorem map_foldWhile {p : Token → Bool} {step : α → Reading α} {step' : β → Reading β} (f : α → β)
    (h : ∀ a, f <$> step a = step' (f a)) (a : α) :
    f <$> (Script.Steps.foldWhile p step a : Reading α) = Script.Steps.foldWhile p step' (f a) := by
  have loops : ∀ count a, f <$> Unread.loop p step count a = Unread.loop p step' count (f a) := by
    intro count
    induction count with
    | zero => intro a; simp [Unread.loop]
    | succ count ih =>
      intro a
      simp only [loop_succ, map_bind]
      congr 1
      funext goesOn
      cases goesOn with
      | false => simp
      | true => simp [ih, ← h, map_bind]
  exact (map_bind _ _ _).trans (congrArg _ (funext fun s => loops _ a))

end Reading

namespace Script

open Reading (map_foldWhile)

variable {N N' G G' : Type} {rules : Rules}

/-- Whether what one builder makes is what another one makes of the same, as seen through `f`, and
    groups of the first stand for groups of the second. -/
structure Builder.Maps (make : Builder Reading N G) (make' : Builder Reading N' G') (f : N → N')
    (g : G → G') : Prop where
  none : g make.none = make'.none
  add : ∀ group name identifier, g (make.add group name identifier) = make'.add (g group) name identifier
  declared : ∀ group, make'.declared (g group) = make.declared group
  clause : ∀ frames c, f <$> make.clause frames c = make'.clause (frames.map g) c
  triple : ∀ left boolean right, f <$> make.triple left boolean right =
    make'.triple (f left) boolean (f right)
  height : ∀ node, make'.height (f node) = make.height node
  sortBy : ∀ node keys, f <$> make.sortBy node keys = make'.sortBy (f node) keys
  declare : ∀ node group, f <$> make.declare node group = make'.declare (f node) (g group)
  outer : ∀ frames, make'.outer (frames.map g) = make.outer frames
  within : ∀ group inner, f <$> make.within group inner = make'.within (g group) (f <$> inner)

namespace Builder.Maps

variable {make : Builder Reading N G} {make' : Builder Reading N' G'} {f : N → N'} {g : G → G'}
  (maps : make.Maps make' f g)
include maps

theorem declarations : g <$> declarations rules make = declarations rules make' := by
  rw [Script.declarations, Script.declarations, ← maps.none]
  refine map_foldWhile g (fun group => ?_) _
  simp only [declaration, map_bind, maps.declared, ← maps.add]
  congr; funext _; congr; funext name; congr; funext identifier
  split <;> simp

theorem clauses (frames : List G) :
    f <$> Script.clause rules make frames = Script.clause rules make' (frames.map g) := by
  simp only [Script.clause, map_bind, ← maps.clause]
  congr; funext next
  split
  · simp only [map_bind]
    congr; funext found
    split <;> simp
  · split
    · simp only [map_bind]
      rfl
    · simp only [map_bind]
      congr; funext name; congr; funext _; congr; funext relation; congr; funext found
      split <;> simp

theorem join (operand : Reading N) (left : N) :
    f <$> join rules make operand left = join rules make' (f <$> operand) (f left) := by
  simp only [Script.join, map_bind, bind_map_left, ← maps.triple, maps.height]
  congr; funext boolean; congr; funext right; congr; funext node; congr; funext levels
  split <;> simp

theorem chain (operand : Reading N) :
    f <$> chain rules make operand = chain rules make' (f <$> operand) := by
  simp only [Script.chain, map_bind, bind_map_left]
  congr; funext first
  rw [← map_foldWhile f (maps.join operand), bind_map_left]
  congr; funext whole; congr; funext sorted
  cases sorted <;> simp [maps.sortBy]

theorem subquery (frames : List G) {enter : G → Reading N} {enter' : G' → Reading N'}
    (h : ∀ group, f <$> enter group = enter' (g group)) :
    f <$> subquery rules make frames enter = subquery rules make' (frames.map g) enter' := by
  simp only [Script.subquery, map_bind, ← maps.declarations, bind_map_left, ← h, maps.declared]
  congr; funext opened
  cases opened with
  | true =>
    simp only [if_true, map_bind]
    congr; funext _; congr; funext group; congr; funext whole; congr; funext closes
    split <;> simp
  | false =>
    simp only [Bool.false_eq_true, if_false, map_bind]
    congr; funext group
    split <;> simp [maps.clauses]

theorem inScope (depth : Nat) : ∀ (frames : List G) (group : G),
    f <$> inScope rules make depth frames group =
      inScope rules make' depth (frames.map g) (g group) := by
  induction depth with
  | zero => intro frames group; rfl
  | succ depth ih =>
    intro frames group
    have inner : f <$> Script.chain rules make (Script.subquery rules make (group :: frames)
        (Script.inScope rules make depth (group :: frames))) =
          Script.chain rules make' (Script.subquery rules make' (g group :: frames.map g)
            (Script.inScope rules make' depth (g group :: frames.map g))) := by
      rw [maps.chain, maps.subquery (group :: frames) (ih (group :: frames)), List.map_cons]
    simp only [Script.inScope, map_bind, maps.outer, maps.declared, ← inner, ← maps.within,
      bind_map_left, ← maps.declare]
    congr; funext names
    generalize List.find? _ _ = clash
    cases rules.rejectDuplicatePrefix <;> cases clash <;> simp

theorem whole (depth : Nat) : f <$> whole rules make depth = whole rules make' depth := by
  simp only [Script.whole, map_bind, ← maps.declarations, bind_map_left]
  congr; funext group
  rw [← List.map_nil (f := g), ← maps.inScope, bind_map_left]
  congr; funext root; congr; funext found
  cases found <;> simp

end Builder.Maps

end Script

namespace Reading

theorem ofList_append_singleton (group : Declarations) (d : String × String) :
    PrefixMap.ofList (group ++ [d]) = (PrefixMap.ofList group).insert d.1 d.2 := by
  simp [PrefixMap.ofList]

/-- Trees with notes are trees, apart from the notes. -/
theorem observing_maps : observing.Maps Script.trees Observed.node PrefixMap.ofList where
  none := rfl
  add _ _ _ := ofList_append_singleton _ _
  declared _ := rfl
  clause _ _ := by simp [observing, Script.trees]
  triple _ _ _ := by simp [observing, Script.trees]
  height _ := rfl
  sortBy _ _ := by simp [observing, Script.trees]
  declare _ _ := by simp [observing, Script.trees]
  outer _ := by
    simp only [observing, Script.trees, List.map_map]
    rfl
  within _ _ := rfl

/-- Observation changes nothing in what is read. -/
theorem node_observedTree : Observed.node <$> observedTree rules = tree rules :=
  observing_maps.whole rules.maxDepth

theorem map_observedQuery (source : String) :
    Prod.fst <$> observedQuery rules source = query rules source := by
  simp only [observedQuery, query, Script.query, ← node_observedTree, map_bind, bind_map_left,
    map_pure]

end Reading

/-- A text is observed to be the query that it is read as, or refused for the same reason. -/
theorem map_observe (rules : Rules) (source : String) :
    Prod.fst <$> observe rules source = parse rules source := by
  unfold observe parse
  cases started : Session.start rules.wordChars source with
  | error d => rfl
  | ok session =>
    obtain rfl := Session.eq_of_start started
    have run (s : Reading.State) : Reading.query rules source s =
        EStateM.map Prod.fst (Reading.observedQuery rules source) s :=
      congrFun (Reading.map_observedQuery source).symm s
    simp only [bind, Except.bind]
    unfold Session.read EStateM.run
    rw [run, EStateM.map]
    cases Reading.observedQuery rules source _ <;> rfl

end ContextualQuery
