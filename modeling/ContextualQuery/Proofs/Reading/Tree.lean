import ContextualQuery.Proofs.Reading.Observed
import ContextualQuery.Proofs.Reading.Parts
import Mathlib.Data.List.Induction

/-! Reading a tree succeeds exactly on the tokens that spell a phrase within the rules, and gives the
    tree that the phrase builds (`tree_eq_ok`). -/

namespace ContextualQuery.Reading

variable {rules : Rules}

/-! ### Groups of declarations -/

/-- Whether strict rules let a declaration join a group. -/
def Joins (rules : Rules) (group : Declarations) (name : String) : Prop :=
  rules.rejectDuplicatePrefix = true →
    (PrefixMap.ofList group).contains name = false ∧ ContextSet.reserved? name = none

/-- A declaration is read if it is spelled and strict rules let it join the group. -/
theorem observedDeclaration_eq_ok {group g : Declarations} {s t : State} :
    Script.declaration rules observing group s = .ok g t ↔
      ∃ d, binding rules s = .ok d t ∧ Joins rules group d.1 ∧ group ++ [d] = g := by
  have unfolded : Script.declaration rules observing group = binding rules >>= fun d =>
      if (rules.rejectDuplicatePrefix &&
          ((PrefixMap.ofList group).contains d.1 || (ContextSet.reserved? d.1).isSome)) = true then
        refuse (.duplicatePrefix d.1) >>= fun _ : Unit => pure (group ++ [d])
      else pure (group ++ [d]) := by
    simp only [Script.declaration, binding, bind_assoc, pure_bind]
    rfl
  rw [unfolded, bind_eq_ok]
  have allowed (name : String) : (¬(rules.rejectDuplicatePrefix &&
      ((PrefixMap.ofList group).contains name || (ContextSet.reserved? name).isSome)) = true) ↔
        Joins rules group name := by
    unfold Joins
    cases rules.rejectDuplicatePrefix <;> simp
  constructor
  · rintro ⟨d, r, bound, run⟩
    obtain ⟨joins, run⟩ := guard_eq_ok.1 run
    obtain ⟨rfl, rfl⟩ := pure_eq_ok.1 run
    exact ⟨d, bound, (allowed d.1).1 joins, rfl⟩
  · rintro ⟨d, bound, joins, rfl⟩
    exact ⟨d, t, bound, guard_eq_ok.2 ⟨(allowed d.1).2 joins, pure_eq_ok.2 ⟨rfl, rfl⟩⟩⟩

theorem drops_observedDeclaration :
    Drops (· == .comparison .gt) (Script.declaration rules observing) := by
  intro group t ts n g s ht run
  obtain ⟨d, bound, -, -⟩ := observedDeclaration_eq_ok.1 run
  obtain ⟨u, rest, split, spelled, rfl⟩ := (reads_binding t ts n d s ht).1 bound
  obtain ⟨t', v, rfl, -⟩ := startsWith_binding _ _ _ spelled
  refine ⟨rest, n, rfl, ?_⟩
  rw [split, List.length_append, List.length_cons]
  omega

/-- By induction on the turns of the loop: the group that has been read is what it started with and
    what the turns added. -/
theorem looped_observedDeclaration {group all : Declarations} {s t : State}
    (loop : Looped (· == .comparison .gt) (Script.declaration rules observing) group s all t) :
    ∀ ts n, s = closed ts n → ∃ u rest ds, ts = u ++ rest ∧
      Sequence (· == .comparison .gt) (DeclarationSpelling rules) u rest.head? ds ∧
      Addable rules (.ofList group) ds ∧ all = group ++ ds ∧ t = closed rest n := by
  induction loop with
  | stop ends =>
    rintro ts n rfl
    exact ⟨[], ts, [], rfl, .nil (by simpa using ends), trivial, by simp, rfl⟩
  | again goesOn once more ih =>
    rintro ts n rfl
    obtain ⟨t, ts, rfl⟩ := List.exists_cons_of_ne_nil (l := ts) (by rintro rfl; simp at goesOn)
    obtain ⟨d, bound, joins, rfl⟩ := observedDeclaration_eq_ok.1 once
    obtain ⟨u, rest, split, spelled, rfl⟩ :=
      (reads_binding t ts n d _ (by simpa using goesOn)).1 bound
    obtain ⟨v, rest', ds, rfl, later, addable, rfl, rfl⟩ := ih rest n rfl
    rw [ofList_append_singleton] at addable
    refine ⟨u ++ v, rest', d :: ds, by rw [split, List.append_assoc], ?_, ⟨joins, addable⟩,
      by simp, rfl⟩
    exact .cons (by rwa [← head?_append_eq_ahead]) later

/-- And back, by induction on the declarations. -/
theorem Looped.of_declarations {u : List Token} {next : Option Token} {ds : Declarations}
    (h : Sequence (· == .comparison .gt) (DeclarationSpelling rules) u next ds) :
    ∀ rest n group, rest.head? = next → Addable rules (.ofList group) ds →
      Looped (· == .comparison .gt) (Script.declaration rules observing) group (closed (u ++ rest) n)
        (group ++ ds) (closed rest n) := by
  induction h with
  | nil ends =>
    rintro rest n group rfl _
    rw [List.append_nil]
    exact .stop (by simpa using ends)
  | @cons u v next d ds first _ ih =>
    rintro rest n group rfl ⟨joins, addable⟩
    obtain ⟨t, w, rfl, ht⟩ := startsWith_binding _ _ _ first
    have bound : binding rules (closed ((t :: w) ++ (v ++ rest)) n) = .ok d (closed (v ++ rest) n) :=
      (reads_binding t (w ++ (v ++ rest)) n d _ ht).2
        ⟨t :: w, v ++ rest, rfl, by rwa [head?_append_eq_ahead], rfl⟩
    rw [List.append_assoc]
    refine .again (by simpa using ht) (observedDeclaration_eq_ok.2 ⟨d, bound, joins, rfl⟩) ?_
    rw [← ofList_append_singleton] at addable
    simpa using ih rest n (group ++ [d]) rfl addable

/-- All declarations that stand here, of which strict rules accept each when it is added. -/
theorem reads_observedDeclarations :
    Reads (Script.declarations rules observing) (GroupSpelling rules) := by
  intro ts n group s
  rw [Script.declarations, foldWhile_eq_ok drops_observedDeclaration]
  constructor
  · intro loop
    obtain ⟨u, rest, ds, rfl, written, addable, rfl, rfl⟩ := looped_observedDeclaration loop ts n rfl
    exact ⟨u, rest, rfl, .group (by simpa using written) addable, rfl⟩
  · rintro ⟨u, rest, rfl, ⟨written, addable⟩, rfl⟩
    exact Looped.of_declarations written rest n [] rfl addable

/-- A map is not empty behind an insertion. -/
theorem insertEntry_ne_nil (key value : String) (entries : List (String × String)) :
    Dictionary.insertEntry key value entries ≠ [] := by
  cases entries with
  | nil => simp [Dictionary.insertEntry]
  | cons p rest =>
    unfold Dictionary.insertEntry
    split
    · simp
    · split <;> simp

/-- A group amounts to nothing only if nothing is declared in it. -/
theorem isEmpty_ofList (group : Declarations) :
    (PrefixMap.ofList group).isEmpty = group.isEmpty := by
  cases group using List.reverseRecOn with
  | nil => rfl
  | append_singleton group d =>
    rw [ofList_append_singleton, List.isEmpty_eq_false_iff.2 (by simp)]
    exact List.isEmpty_eq_false_iff.2 (insertEntry_ne_nil _ _ _)

theorem observing_isEmpty (group : Declarations) :
    (observing.declared group).isEmpty = group.isEmpty := isEmpty_ofList group

/-! ### Clauses -/

section
variable {α G : Type} {make : Script.Builder Reading α G} {frames : List G}

/-- Behind the relation of a clause stands its term. -/
theorem term_bind_eq_ok {f : Fault} {k : Term → Reading α} {ts : List Token} {n : Nat} {x : α}
    {s : State} :
    (do if (← current).isNone then refuse f
        k (← term rules)) (closed ts n) = .ok x s ↔
      ∃ w rest m, ts = w :: rest ∧ termOf rules (some w) = .ok m ∧ k m (closed rest n) = .ok x s := by
  rw [current_bind, guard_eq_ok, bind_eq_ok]
  constructor
  · rintro ⟨-, m, r, found, made⟩
    obtain ⟨u, rest, rfl, ⟨w, rfl, searched⟩, rfl⟩ := (reads_term _ _ _ _).1 found
    exact ⟨w, rest, m, rfl, searched, made⟩
  · rintro ⟨w, rest, m, rfl, searched, made⟩
    have found := (reads_term (w :: rest) n m _).2 ⟨[w], rest, rfl, ⟨w, rfl, searched⟩, rfl⟩
    exact ⟨by simp, m, _, found, made⟩

/-- A clause that is a term alone. -/
theorem clause_alone_eq_ok {ts : List Token} {n : Nat} {x : α} {s : State}
    (ends : endsTerm ts[1]? = true) :
    Script.clause rules make frames (closed ts n) = .ok x s ↔ ∃ w rest m, ts = w :: rest ∧
      termOf rules (some w) = .ok m ∧ make.clause frames (.ofTerm m) (closed rest n) = .ok x s := by
  rw [Script.clause, following_bind, closed_following, if_pos ends]
  exact term_bind_eq_ok

/-- A clause with a relation. -/
theorem clause_full_eq_ok {ts : List Token} {n : Nat} {x : α} {s : State}
    (goesOn : endsTerm ts[1]? = false) :
    Script.clause rules make frames (closed ts n) = .ok x s ↔ ∃ t name u relation w m rest,
      ts = t :: (u ++ w :: rest) ∧ NameSpelling rules t name ∧ RelationSpelling u (some w) relation ∧
        termOf rules (some w) = .ok m ∧
        make.clause frames { index := { name }, relation, term := m } (closed rest n) = .ok x s := by
  rw [Script.clause, following_bind, closed_following, if_neg (by simp [goesOn])]
  constructor
  · intro run
    split at run
    · simp [current_bind, refuse_eq_ok] at run
    · obtain ⟨name, r, seen, run⟩ := bind_eq_ok.1 run
      obtain ⟨t, ts, rfl, named, rfl⟩ := name_eq_ok.1 seen
      rw [advance_bind, List.tail_cons, bind_eq_ok] at run
      obtain ⟨relation, r, taken, run⟩ := run
      obtain ⟨u, rest, rfl, related, rfl⟩ := (reads_relation _ _ _ _).1 taken
      obtain ⟨w, rest, m, rfl, searched, made⟩ := term_bind_eq_ok.1 run
      exact ⟨t, name, u, relation, w, m, rest, rfl, named, related, searched, made⟩
  · rintro ⟨t, name, u, relation, w, m, rest, rfl, named, related, searched, made⟩
    have shut : ((t :: (u ++ w :: rest))[1]? == some Token.openParen) = false := by
      cases related <;> simp
    have taken := (reads_relation (u ++ w :: rest) n relation _).2 ⟨u, w :: rest, rfl, related, rfl⟩
    rw [if_neg (by rw [shut]; simp)]
    refine bind_eq_ok.2 ⟨name, _, name_eq_ok.2 ⟨t, _, rfl, named, rfl⟩, ?_⟩
    rw [advance_bind, List.tail_cons]
    refine bind_eq_ok.2 ⟨relation, _, taken, ?_⟩
    exact term_bind_eq_ok.2 ⟨w, rest, m, rfl, searched, made⟩

/-- A leaf is made exactly of the tokens that spell a clause. -/
theorem script_clause_eq_ok {ts : List Token} {n : Nat} {x : α} {s : State} :
    Script.clause rules make frames (closed ts n) = .ok x s ↔ ∃ u rest c, ts = u ++ rest ∧
      ClauseSpelling rules u rest.head? c ∧ make.clause frames c (closed rest n) = .ok x s := by
  constructor
  · intro run
    cases ends : endsTerm ts[1]? with
    | true =>
      obtain ⟨w, rest, m, rfl, searched, made⟩ := (clause_alone_eq_ok ends).1 run
      have ends : endsTerm rest.head? = true := by cases rest <;> simpa using ends
      exact ⟨[w], rest, _, rfl, .alone ends searched, made⟩
    | false =>
      obtain ⟨t, name, u, relation, w, m, rest, rfl, named, related, searched, made⟩ :=
        (clause_full_eq_ok ends).1 run
      have goesOn : ∀ x ∈ u.head?, endsTerm (some x) = false := by
        cases related <;> simpa using ends
      exact ⟨t :: (u ++ [w]), rest, _, by simp, .full named goesOn related searched, made⟩
  · rintro ⟨u, rest, c, rfl, spelled, made⟩
    cases spelled with
    | @full t name u relation w m next named goesOn related searched =>
      have second : endsTerm (t :: (u ++ [w]) ++ rest)[1]? = false := by
        cases related <;> simpa using goesOn
      exact (clause_full_eq_ok second).2
        ⟨t, name, u, relation, w, m, rest, by simp, named, related, searched, made⟩
    | @alone w m next ends searched =>
      have second : endsTerm ([w] ++ rest)[1]? = true := by cases rest <;> simpa using ends
      exact (clause_alone_eq_ok second).2 ⟨w, rest, m, rfl, searched, made⟩

end

theorem newClause_eq (c : Clause) (ts : List Token) (n : Nat) :
    newClause c (closed ts n) = .ok (.clause { id := n, height := 1 } c) (closed ts (n + 1)) := rfl

/-- A clause is one node, numbered when it is read. -/
theorem clause_eq_ok {ts : List Token} {n : Nat} {node : Node} {s : State} :
    clause rules (closed ts n) = .ok node s ↔ ∃ u rest c, ts = u ++ rest ∧
      ClauseSpelling rules u rest.head? c ∧ node = .clause { id := n, height := 1 } c ∧
      s = closed rest (n + 1) := by
  rw [clause, script_clause_eq_ok]
  simp only [Script.trees, newClause_eq, EStateM.Result.ok.injEq, eq_comm]

/-! ### Trees -/

/-- A reading of a tree takes what a spelling allows, where the phrase fits, and notes the clauses
    inside the groups `groups`. -/
def Builds (groups : List Declarations) (S : Spelling Phrase) (fits : Phrase → Prop)
    (m : Reading Observed) : Prop :=
  ∀ ts n x s, m (closed ts n) = .ok x s ↔ ∃ u rest p, ts = u ++ rest ∧ S u rest.head? p ∧ fits p ∧
    x = ⟨p.build n, p.notes groups n⟩ ∧ s = closed rest (n + p.size)

@[simp] theorem height_triple (info : NodeInfo) (left : Node) (b : Boolean) (right : Node) :
    (Node.triple info left b right).height = info.height := rfl

@[simp] theorem height_sortBy (keys : List Index) (t : Node) : (t.sortBy keys).height = t.height := by
  cases t <;> rfl

@[simp] theorem height_declare (group : PrefixMap) (t : Node) :
    (t.declare group).height = t.height := by
  cases t <;> rfl

/-- A tree has as many levels as its phrase. -/
theorem height_build (p : Phrase) : ∀ n, (p.build n).height = p.height := by
  induction p with
  | clause c => intro n; rfl
  | join left b right _ _ => intro n; rfl
  | sort body keys ih =>
    intro n
    rw [Phrase.height, Phrase.build, height_sortBy, ih]
  | scope group body ih =>
    intro n
    rw [Phrase.height, Phrase.build, height_declare, ih]

/-- The leaf of a clause, with the open groups noted. -/
theorem observing_clause (groups : List Declarations) (c : Clause) (ts : List Token) (n : Nat) :
    observing.clause groups c (closed ts n) =
      .ok ⟨(Phrase.clause c).build n, (Phrase.clause c).notes groups n⟩ (closed ts (n + 1)) := rfl

/-- The triple of two observed trees, with the notes of both. -/
theorem observing_triple (left right : Observed) (b : Boolean) (ts : List Token) (n : Nat) :
    observing.triple left b right (closed ts n) =
      .ok ⟨.triple { id := n, height := 1 + max left.node.height right.node.height } left.node b
        right.node, left.notes ++ right.notes⟩ (closed ts (n + 1)) := rfl

theorem observing_height (x : Observed) : observing.height x = pure x.node.height := rfl

section
variable {groups : List Declarations} {depth : Nat} {operand : Reading Observed}

/-- A boolean and an operand behind a tree, unless there are too many levels then. -/
theorem observedJoin_eq_ok (builds : Builds groups (Spells rules .operand)
    (fun p => p.Fits rules depth groups) operand) {left : Phrase} {ts : List Token} {n : Nat}
    {x : Observed} {s : State} :
    Script.join rules observing operand ⟨left.build n, left.notes groups n⟩ (closed ts (n + left.size)) =
        .ok x s ↔
      ∃ u v rest b right, ts = u ++ (v ++ rest) ∧ BooleanSpelling u (ahead v rest.head?) b ∧
        Spells rules .operand v rest.head? right ∧ right.Fits rules depth groups ∧
        1 + max left.height right.height ≤ rules.maxDepth ∧
        x = ⟨(Phrase.join left b right).build n, (Phrase.join left b right).notes groups n⟩ ∧
        s = closed rest (n + (Phrase.join left b right).size) := by
  rw [Script.join, bind_eq_ok]
  constructor
  · rintro ⟨b, r, taken, run⟩
    obtain ⟨u, ts, rfl, joined, rfl⟩ := (reads_boolean _ _ _ _).1 taken
    obtain ⟨y, r, built, run⟩ := bind_eq_ok.1 run
    obtain ⟨v, rest, right, rfl, spelled, fits, rfl, rfl⟩ := (builds _ _ _ _).1 built
    -- The triple is made first and its levels are counted afterwards.
    obtain ⟨node, r, made, run⟩ := bind_eq_ok.1 run
    rw [observing_triple, EStateM.Result.ok.injEq] at made
    obtain ⟨rfl, rfl⟩ := made
    rw [observing_height, pure_bind] at run
    obtain ⟨low, run⟩ := guard_eq_ok.1 run
    obtain ⟨rfl, rfl⟩ := pure_eq_ok.1 run
    refine ⟨u, v, rest, b, right, rfl, by rwa [← head?_append_eq_ahead], spelled, fits, ?_, ?_, ?_⟩
    · simpa [height_build] using low
    · simp [Phrase.build, Phrase.notes, height_build]
    · simp [Phrase.size, Nat.add_assoc]
  · rintro ⟨u, v, rest, b, right, rfl, joined, spelled, fits, low, rfl, rfl⟩
    have taken := (reads_boolean (u ++ (v ++ rest)) (n + left.size) b _).2
      ⟨u, v ++ rest, rfl, by rwa [head?_append_eq_ahead], rfl⟩
    have built := (builds (v ++ rest) (n + left.size) _ _).2
      ⟨v, rest, right, rfl, spelled, fits, rfl, rfl⟩
    refine ⟨b, _, taken, bind_eq_ok.2 ⟨_, _, built, bind_eq_ok.2 ⟨_, _, observing_triple .., ?_⟩⟩⟩
    rw [observing_height, pure_bind]
    refine guard_eq_ok.2 ⟨?_, pure_eq_ok.2 ⟨?_, ?_⟩⟩
    · simpa [height_build] using low
    · simp [Phrase.build, Phrase.notes, height_build]
    · simp [Phrase.size, Nat.add_assoc]

/-- A turn drops the boolean. -/
theorem drops_observedJoin (builds : Builds groups (Spells rules .operand)
    (fun p => p.Fits rules depth groups) operand) :
    Drops Token.isBoolean (Script.join rules observing operand) := by
  intro left t ts n x s ht run
  rw [Script.join, bind_eq_ok] at run
  obtain ⟨b, r, taken, run⟩ := run
  obtain ⟨u, ts', split, joined, rfl⟩ := (reads_boolean _ _ _ _).1 taken
  obtain ⟨y, r, built, run⟩ := bind_eq_ok.1 run
  obtain ⟨v, rest, right, rfl, -, -, -, rfl⟩ := (builds _ _ _ _).1 built
  obtain ⟨node, r, made, run⟩ := bind_eq_ok.1 run
  rw [observing_triple, EStateM.Result.ok.injEq] at made
  obtain ⟨-, rfl⟩ := made
  rw [observing_height, pure_bind] at run
  obtain ⟨-, run⟩ := guard_eq_ok.1 run
  obtain ⟨-, rfl⟩ := pure_eq_ok.1 run
  refine ⟨rest, _, rfl, ?_⟩
  rw [split]
  cases joined
  simp
  omega

/-- By induction on the turns: the tree built so far is the left operand of the next triple. -/
theorem looped_observedJoin (builds : Builds groups (Spells rules .operand)
    (fun p => p.Fits rules depth groups) operand) {n : Nat} {x y : Observed} {s t : State}
    (loop : Looped Token.isBoolean (Script.join rules observing operand) x s y t) :
    ∀ left ts, x = ⟨left.build n, left.notes groups n⟩ → s = closed ts (n + left.size) →
      left.Fits rules depth groups → ∃ u rest p, ts = u ++ rest ∧
        Spells rules (.links left) u rest.head? p ∧ p.Fits rules depth groups ∧
        y = ⟨p.build n, p.notes groups n⟩ ∧ t = closed rest (n + p.size) := by
  induction loop with
  | stop ends =>
    rintro left ts rfl rfl fits
    exact ⟨[], ts, left, rfl, .done (by simpa using ends), fits, rfl, rfl⟩
  | again goesOn once more ih =>
    rintro left ts rfl rfl fits
    obtain ⟨u, v, rest, b, right, rfl, joined, spelled, fits', low, rfl, rfl⟩ :=
      (observedJoin_eq_ok builds).1 once
    obtain ⟨w, rest', p, rfl, links, fits, rfl, rfl⟩ :=
      ih (.join left b right) rest rfl rfl ⟨fits, fits', low⟩
    rw [head?_append_eq_ahead] at joined spelled
    refine ⟨u ++ (v ++ w), rest', p, by simp, .link ?_ spelled links, fits, rfl, rfl⟩
    rwa [ahead_append]

/-- And back, by induction on what is spelled. -/
theorem Looped.of_links (builds : Builds groups (Spells rules .operand)
    (fun p => p.Fits rules depth groups) operand) {n : Nat} {part : Part} {u : List Token}
    {next : Option Token} {p : Phrase} (h : Spells rules part u next p) :
    ∀ left rest, part = .links left → rest.head? = next → p.Fits rules depth groups →
      Looped Token.isBoolean (Script.join rules observing operand) ⟨left.build n, left.notes groups n⟩
        (closed (u ++ rest) (n + left.size)) ⟨p.build n, p.notes groups n⟩
        (closed rest (n + p.size)) ∧ left.Fits rules depth groups := by
  induction h with
  | done ends =>
    rintro left rest ⟨⟩ rfl fits
    exact ⟨.stop (by simpa using ends), fits⟩
  | @link u v w next left b right p joined spelled links _ ih =>
    rintro left rest ⟨⟩ rfl fits
    obtain ⟨loop, fits, fits', low⟩ := ih _ rest rfl rfl fits
    refine ⟨?_, fits⟩
    have goesOn := joined.goesOn (v ++ w ++ rest)
    refine .again (by simpa using goesOn) ((observedJoin_eq_ok builds).2
      ⟨u, v, w ++ rest, b, right, by simp, ?_, ?_, fits', low, rfl, rfl⟩) loop
    · rwa [head?_append_eq_ahead, ← ahead_append]
    · rwa [head?_append_eq_ahead]
  | _ => rintro left rest ⟨⟩

/-- What a chain of operands is sorted by. -/
def observedSort (rules : Rules) (whole : Observed) : Reading Observed := do
  if ← currentIs (Token.isWord sortWord) then
    advance
    return { whole with node := whole.node.sortBy (← sortKeys rules) }
  else return whole

/-- A chain is an operand, a loop and the sort keys. -/
theorem observedChain_eq : Script.chain rules observing operand =
    operand >>= foldWhile Token.isBoolean (Script.join rules observing operand) >>=
      observedSort rules := by
  rw [bind_assoc]
  rfl

/-- Sort keys are attached to the whole tree, if `sortby` stands behind it. -/
theorem observedSort_eq_ok {p : Phrase} {ts : List Token} {n : Nat} {x : Observed} {s : State} :
    observedSort rules ⟨p.build n, p.notes groups n⟩ (closed ts (n + p.size)) = .ok x s ↔
      ∃ w rest q, ts = w ++ rest ∧ SortSpelling rules p w rest.head? q ∧
        x = ⟨q.build n, q.notes groups n⟩ ∧ s = closed rest (n + q.size) := by
  rw [observedSort, currentIs_bind, closed_current]
  constructor
  · intro run
    split at run
    next sortby =>
      -- The keyword is dropped, then keys are read for as long as texts come.
      obtain ⟨t, ts, rfl⟩ := List.exists_cons_of_ne_nil (l := ts) (by rintro rfl; simp at sortby)
      rw [advance_bind, List.tail_cons, bind_eq_ok] at run
      obtain ⟨keys, r, taken, result⟩ := run
      obtain ⟨w, rest, rfl, ⟨some_key, sorting⟩, rfl⟩ := (reads_sortKeys _ _ _ _).1 taken
      obtain ⟨rfl, rfl⟩ := pure_eq_ok.1 result
      exact ⟨t :: w, rest, _, rfl, .sorted (by simpa using sortby) some_key sorting, rfl, rfl⟩
    next unsorted =>
      obtain ⟨rfl, rfl⟩ := pure_eq_ok.1 run
      exact ⟨[], ts, p, rfl, .unsorted (by simpa using unsorted), rfl, rfl⟩
  · rintro ⟨w, rest, q, rfl, spelled, rfl, rfl⟩
    cases spelled with
    | unsorted unsorted =>
      rw [List.nil_append, unsorted]
      exact pure_eq_ok.2 ⟨rfl, rfl⟩
    | @sorted t w next keys sortby some_key sorting =>
      have taken := (reads_sortKeys (w ++ rest) (n + p.size) keys _).2
        ⟨w, rest, rfl, ⟨some_key, sorting⟩, rfl⟩
      have sorts : (t :: w ++ rest).head?.any (Token.isWord sortWord) = true := by simpa using sortby
      rw [sorts, if_pos rfl, advance_bind]
      exact bind_eq_ok.2 ⟨keys, _, taken, pure_eq_ok.2 ⟨rfl, rfl⟩⟩

/-- Sort keys change neither levels nor scopes. -/
theorem fits_of_sort {p q : Phrase} {w : List Token} {next : Option Token}
    (h : SortSpelling rules p w next q) : q.Fits rules depth groups ↔ p.Fits rules depth groups := by
  cases h <;> rfl

/-- Operand, links and sort keys put together. -/
theorem builds_chain (builds : Builds groups (Spells rules .operand)
    (fun p => p.Fits rules depth groups) operand) :
    Builds groups (Spells rules .chain) (fun p => p.Fits rules depth groups)
      (Script.chain rules observing operand) := by
  intro ts n x s
  have loops := @foldWhile_eq_ok _ _ _ (drops_observedJoin builds)
  rw [observedChain_eq, bind_eq_ok]
  simp only [bind_eq_ok, Spells.chain_iff]
  constructor
  · rintro ⟨y, r, ⟨z, r', first, loop⟩, sort⟩
    obtain ⟨u, ts, left, rfl, spelled, fits, rfl, rfl⟩ := (builds _ _ _ _).1 first
    obtain ⟨v, ts, p, rfl, links, fits, rfl, rfl⟩ :=
      looped_observedJoin builds (loops.1 loop) left ts rfl rfl fits
    obtain ⟨w, rest, q, rfl, sorted, rfl, rfl⟩ := observedSort_eq_ok.1 sort
    rw [head?_append_eq_ahead] at links
    rw [← List.append_assoc, head?_append_eq_ahead] at spelled
    exact ⟨u ++ (v ++ w), rest, q, by simp, ⟨u, v, w, left, p, rfl, spelled, links, sorted⟩,
      (fits_of_sort sorted).2 fits, rfl, rfl⟩
  · rintro ⟨ts, rest, q, rfl, ⟨u, v, w, left, p, rfl, first, links, sorted⟩, fits, rfl, rfl⟩
    -- The links are spelled in front of the sort keys, so the loop stops at `sortby` or at the end.
    obtain ⟨loop, fits⟩ := Looped.of_links builds (n := n) links left (w ++ rest) rfl
      (head?_append_eq_ahead w rest) ((fits_of_sort sorted).1 fits)
    rw [← head?_append_eq_ahead] at first
    rw [← List.append_assoc] at loop
    have built := (builds (u ++ (v ++ w ++ rest)) n _ _).2
      ⟨u, v ++ w ++ rest, left, rfl, first, fits, rfl, rfl⟩
    rw [List.append_assoc]
    exact ⟨_, _, ⟨_, _, built, loops.2 loop⟩,
      observedSort_eq_ok.2 ⟨w, rest, q, rfl, sorted, rfl, rfl⟩⟩

end

/-- Entering a group of declarations reads a chain and builds the scope around it. -/
def Enters (rules : Rules) (groups : List Declarations) (depth : Nat)
    (enter : Declarations → Reading Observed) : Prop :=
  ∀ group ts n x s, enter group (closed ts n) = .ok x s ↔ ∃ u rest body, ts = u ++ rest ∧
    Spells rules .chain u rest.head? body ∧ (Phrase.scope group body).Fits rules depth groups ∧
    x = ⟨(Phrase.scope group body).build n, (Phrase.scope group body).notes groups n⟩ ∧
    s = closed rest (n + body.size)

theorem groupSpelling_nil {u : List Token} {next : Option Token}
    (h : GroupSpelling rules u next []) : u = [] := by
  obtain ⟨written, -⟩ := h
  cases written
  rfl

/-- What is left behind a query in parentheses. -/
theorem closeParen_eq_ok {α : Type} {a b : α} {ts : List Token} {n : Nat} {s : State} :
    (do unless ← currentIs (· == .closeParen) do refuse (.unexpected (← current))
        advance
        return a : Reading α) (closed ts n) = .ok b s ↔
      ∃ rest, ts = .closeParen :: rest ∧ a = b ∧ s = closed rest n := by
  rw [currentIs_bind, closed_current]
  constructor
  · intro run
    cases closes : ts.head?.any (· == .closeParen) with
    | false =>
      simp only [closes, Bool.false_eq_true, if_false, current_bind, bind_eq_ok, refuse_eq_ok,
        false_and, exists_false] at run
    | true =>
      obtain ⟨t, rest, rfl⟩ := List.exists_cons_of_ne_nil (l := ts) (by rintro rfl; simp at closes)
      obtain rfl : t = .closeParen := by simpa using closes
      simp only [closes, if_true, advance_bind] at run
      obtain ⟨rfl, rfl⟩ := pure_eq_ok.1 run
      exact ⟨rest, rfl, rfl, rfl⟩
  · rintro ⟨rest, rfl, rfl, rfl⟩
    exact (advance_bind _ _).trans (pure_eq_ok.2 ⟨rfl, rfl⟩)

section
variable {groups : List Declarations} {depth : Nat} {enter : Declarations → Reading Observed}

/-- Between parentheses: declarations, a query in their scope, and a closing parenthesis. -/
theorem builds_subquery_paren (enters : Enters rules groups depth enter) {ts : List Token}
    {n : Nat} {x : Observed} {s : State} :
    Script.subquery rules observing groups enter (closed (.openParen :: ts) n) = .ok x s ↔
      ∃ u rest p, ts = u ++ .closeParen :: rest ∧ Spells rules .query u (some .closeParen) p ∧
        p.Fits rules depth groups ∧ x = ⟨p.build n, p.notes groups n⟩ ∧
        s = closed rest (n + p.size) := by
  rw [Script.subquery, currentIs_bind]
  simp only [closed_current, List.head?_cons, Option.any_some, beq_self_eq_true, if_true,
    advance_bind, List.tail_cons]
  rw [bind_eq_ok]
  constructor
  · rintro ⟨group, r, taken, run⟩
    obtain ⟨u, ts, rfl, declared, rfl⟩ := (reads_observedDeclarations _ _ _ _).1 taken
    obtain ⟨y, r, entered, closes⟩ := bind_eq_ok.1 run
    obtain ⟨v, ts, body, rfl, chain, fits, rfl, rfl⟩ := (enters _ _ _ _ _).1 entered
    -- The chain ends in front of the closing parenthesis, which is dropped.
    obtain ⟨rest, rfl, rfl, rfl⟩ := closeParen_eq_ok.1 closes
    rw [head?_append_eq_ahead] at declared
    exact ⟨u ++ v, rest, .scope group body, by simp, .query declared chain, fits, rfl, rfl⟩
  · rintro ⟨w, rest, p, rfl, ⟨declared, chain⟩, fits, rfl, rfl⟩
    rename_i u v group body
    have taken := (reads_observedDeclarations (u ++ (v ++ .closeParen :: rest)) n group _).2
      ⟨u, v ++ .closeParen :: rest, rfl, by rwa [head?_append_eq_ahead], rfl⟩
    have entered := (enters group (v ++ .closeParen :: rest) n _ _).2
      ⟨v, .closeParen :: rest, body, rfl, chain, fits, rfl, rfl⟩
    rw [List.append_assoc]
    exact ⟨group, _, taken, bind_eq_ok.2 ⟨_, _, entered, closeParen_eq_ok.2 ⟨rest, rfl, rfl, rfl⟩⟩⟩

theorem observedClause_eq_ok {ts : List Token} {n : Nat} {x : Observed} {s : State} :
    Script.clause rules observing groups (closed ts n) = .ok x s ↔ ∃ u rest c, ts = u ++ rest ∧
      ClauseSpelling rules u rest.head? c ∧
      x = ⟨(Phrase.clause c).build n, (Phrase.clause c).notes groups n⟩ ∧
      s = closed rest (n + 1) := by
  rw [script_clause_eq_ok]
  simp only [observing_clause, EStateM.Result.ok.injEq, eq_comm]

/-- Without parentheses: declarations and a chain in their scope, or a clause if there are none. -/
theorem builds_subquery_plain (enters : Enters rules groups depth enter) {ts : List Token}
    {n : Nat} {x : Observed} {s : State} (plain : ts.head?.any (· == .openParen) = false) :
    Script.subquery rules observing groups enter (closed ts n) = .ok x s ↔
      ∃ u rest p, ts = u ++ rest ∧ Spells rules .operand u rest.head? p ∧
        p.Fits rules depth groups ∧ x = ⟨p.build n, p.notes groups n⟩ ∧
        s = closed rest (n + p.size) := by
  rw [Script.subquery, currentIs_bind, closed_current, plain, if_neg (by simp), bind_eq_ok]
  simp only [observing_isEmpty]
  constructor
  · rintro ⟨group, r, taken, run⟩
    obtain ⟨u, ts, rfl, declared, rfl⟩ := (reads_observedDeclarations _ _ _ _).1 taken
    split at run
    next empty =>
      obtain rfl := List.isEmpty_iff.1 empty
      -- No declaration has been read, so nothing has been dropped either.
      obtain rfl := groupSpelling_nil declared
      obtain ⟨v, rest, c, rfl, spelled, made⟩ := observedClause_eq_ok.1 run
      exact ⟨v, rest, .clause c, rfl, .clause spelled, trivial, made⟩
    next some_name =>
      obtain ⟨v, rest, body, rfl, chain, fits, rfl, rfl⟩ := (enters _ _ _ _ _).1 run
      rw [head?_append_eq_ahead] at declared
      refine ⟨u ++ v, rest, .scope group body, by simp, .enter declared ?_ chain, fits, rfl, rfl⟩
      simpa using some_name
  · rintro ⟨w, rest, p, rfl, spelled, fits, rfl, rfl⟩
    cases spelled with
    | paren query => simp at plain
    | @enter u v next group body declared some_name chain =>
      have taken := (reads_observedDeclarations (u ++ (v ++ rest)) n group _).2
        ⟨u, v ++ rest, rfl, by rwa [head?_append_eq_ahead], rfl⟩
      rw [List.append_assoc]
      refine ⟨group, _, taken, ?_⟩
      rw [if_neg (by simpa using some_name)]
      exact (enters group (v ++ rest) n _ _).2 ⟨v, rest, body, rfl, chain, fits, rfl, rfl⟩
    | @clause _ next c spelled =>
      -- A clause does not start with `>`, so the loop over declarations makes no turn.
      have undeclared : (w ++ rest).head?.any (· == .comparison .gt) = false := by
        obtain ⟨t, v, rfl, -, gt, -⟩ := spelled.head
        simpa using gt
      have none_declared : GroupSpelling rules [] (w ++ rest).head? [] :=
        .group (.nil undeclared) trivial
      have taken := (reads_observedDeclarations (w ++ rest) n [] _).2
        ⟨[], w ++ rest, rfl, none_declared, rfl⟩
      exact ⟨[], _, taken, observedClause_eq_ok.2 ⟨w, rest, c, rfl, spelled, rfl, rfl⟩⟩

/-- An operand of either form. -/
theorem builds_subquery (enters : Enters rules groups depth enter) :
    Builds groups (Spells rules .operand) (fun p => p.Fits rules depth groups)
      (Script.subquery rules observing groups enter) := by
  intro ts n x s
  cases plain : ts.head?.any (· == .openParen) with
  | false => exact builds_subquery_plain enters plain
  | true =>
    obtain ⟨t, ts, rfl⟩ := List.exists_cons_of_ne_nil (l := ts) (by rintro rfl; simp at plain)
    obtain rfl : t = .openParen := by simpa using plain
    rw [builds_subquery_paren enters]
    constructor
    · rintro ⟨u, rest, p, rfl, query, built⟩
      exact ⟨.openParen :: (u ++ [.closeParen]), rest, p, by simp, .paren query, built⟩
    · rintro ⟨w, rest, p, same, spelled, built⟩
      obtain ⟨v, rfl, rfl⟩ := spelled.operand_cons same
      obtain ⟨u, rfl, query⟩ := spelled.parenthesised
      exact ⟨u, rest, p, by simp, query, built⟩

end

/-- No name of a group is declared around it. -/
theorem find?_eq_none_iff_unclaimed {groups : List Declarations} {group : Declarations} :
    ((PrefixMap.ofList group).names.find? fun name =>
        groups.any fun outer => (PrefixMap.ofList outer).names.contains name) = none ↔
      Unclaimed groups group := by
  simp [Unclaimed, List.find?_eq_none]

/-- By induction on the scopes that may still be opened. -/
theorem enters_observedInScope (depth : Nat) : ∀ groups : List Declarations,
    Enters rules groups depth (Script.inScope rules observing depth groups) := by
  induction depth with
  | zero =>
    intro groups group ts n x s
    simp [Script.inScope, refuse_eq_ok, Phrase.Fits]
  | succ depth ih =>
    intro groups group ts n x s
    have chain := builds_chain (builds_subquery (ih (group :: groups)))
    -- A scope is entered if strict rules find no name again, and its chain is read inside.
    have opens : Script.inScope rules observing (depth + 1) groups group (closed ts n) = .ok x s ↔
        (rules.rejectDuplicatePrefix = true → Unclaimed groups group) ∧
          ∃ y, Script.chain rules observing (Script.subquery rules observing (group :: groups)
            (Script.inScope rules observing depth (group :: groups))) (closed ts n) = .ok y s ∧
              { y with node := y.node.declare (.ofList group) } = x := by
      rw [Script.inScope, ← find?_eq_none_iff_unclaimed]
      simp only [observing, pure_bind, List.any_map, Function.comp_def]
      generalize List.find? _ _ = clash
      cases rules.rejectDuplicatePrefix <;> cases clash <;>
        simp [map_eq_ok, bind_eq_ok, refuse_eq_ok]
    rw [opens]
    constructor
    · rintro ⟨unclaimed, y, run, rfl⟩
      obtain ⟨u, rest, body, rfl, spelled, fits, rfl, rfl⟩ := (chain _ _ _ _).1 run
      exact ⟨u, rest, body, rfl, spelled, ⟨unclaimed, fits⟩, rfl, rfl⟩
    · rintro ⟨u, rest, body, rfl, spelled, ⟨unclaimed, fits⟩, rfl, rfl⟩
      exact ⟨unclaimed, _, (chain _ _ _ _).2 ⟨u, rest, body, rfl, spelled, fits, rfl, rfl⟩, rfl⟩

/-- A text under observation is read as a phrase that it spells within the rules, to its end. -/
theorem observedTree_eq_ok {ts : List Token} {n : Nat} {x : Observed} {s : State} :
    observedTree rules (closed ts n) = .ok x s ↔ ∃ p, Spells rules .query ts none p ∧
      p.Fits rules rules.maxDepth [] ∧ x = ⟨p.build n, p.notes [] n⟩ ∧
      s = closed [] (n + p.size) := by
  rw [observedTree, Script.whole, bind_eq_ok]
  constructor
  · rintro ⟨group, r, taken, run⟩
    obtain ⟨u, ts, rfl, declared, rfl⟩ := (reads_observedDeclarations _ _ _ _).1 taken
    obtain ⟨y, r, entered, run⟩ := bind_eq_ok.1 run
    obtain ⟨v, rest, body, rfl, chain, fits, rfl, rfl⟩ := (enters_observedInScope _ _ _ _ _ _ _).1 entered
    rw [current_bind, closed_current] at run
    cases rest with
    | nil =>
      obtain ⟨rfl, rfl⟩ := pure_eq_ok.1 run
      rw [List.append_nil] at declared ⊢
      exact ⟨.scope group body, .query (by cases v <;> exact declared) chain, fits, rfl, rfl⟩
    | cons t rest =>
      -- A token that is left behind the query refuses it.
      simp only [List.head?_cons, bind_eq_ok, refuse_eq_ok, false_and, exists_false] at run
  · rintro ⟨p, ⟨declared, chain⟩, fits, rfl, rfl⟩
    rename_i u v group body
    have taken := (reads_observedDeclarations (u ++ v) n group _).2
      ⟨u, v, rfl, by cases v <;> exact declared, rfl⟩
    have entered := (enters_observedInScope rules.maxDepth [] group v n _ _).2
      ⟨v, [], body, by simp, chain, fits, rfl, rfl⟩
    exact ⟨group, _, taken, bind_eq_ok.2 ⟨_, _, entered, pure_eq_ok.2 ⟨rfl, rfl⟩⟩⟩

/-- A tree is read exactly from tokens that spell a phrase within the rules; it is the one the
    phrase builds. -/
theorem tree_eq_ok {ts : List Token} {n : Nat} {node : Node} {s : State} :
    tree rules (closed ts n) = .ok node s ↔ ∃ p, Spells rules .query ts none p ∧
      p.Fits rules rules.maxDepth [] ∧ node = p.build n ∧ s = closed [] (n + p.size) := by
  rw [← node_observedTree, map_eq_ok]
  constructor
  · rintro ⟨x, run, rfl⟩
    obtain ⟨p, spelled, fits, rfl, rfl⟩ := observedTree_eq_ok.1 run
    exact ⟨p, spelled, fits, rfl, rfl⟩
  · rintro ⟨p, spelled, fits, rfl, rfl⟩
    exact ⟨_, observedTree_eq_ok.2 ⟨p, spelled, fits, rfl, rfl⟩, rfl⟩

end ContextualQuery.Reading
