import ContextualQuery.Proofs.Reading.Run
import ContextualQuery.Query.Reading.Arena

/-! Reading into an arena beside reading trees.

    Two readings of the same lexemes go on side by side, one that stores nodes and one that makes trees
    and numbers them (`Simulates`). What is read of single parts of a clause is the same in both, and
    leaves the arena alone (`Copies`). -/

namespace ContextualQuery

namespace Reader

/-- What a reading of trees starts with where a reader stands: as many nodes have been created as are
    stored. -/
def state (r : Reader) : Reading.State := ⟨r.lexemes, r.arena.nodes.length⟩

/-- Whether two readings end alike: with related values or with one fault, with the same left to be
    read, and with a number created for each stored node. The scopes of the reader are those that it
    started with. -/
inductive EndsLike {α β : Type} (P : α → β → Arena → Prop) (r : Reader) :
    EStateM.Result Fault Reader α → EStateM.Result Fault Reading.State β → Prop
  | ok {a b lexemes arena} (related : P a b arena) :
      EndsLike P r (.ok a { r with lexemes, arena }) (.ok b ⟨lexemes, arena.nodes.length⟩)
  | error {fault lexemes arena} :
      EndsLike P r (.error fault { r with lexemes, arena }) (.error fault ⟨lexemes, arena.nodes.length⟩)

end Reader

open Reader

/-- Whether a reading that stores nodes ends, from a reader on, as a reading of trees does. -/
def Simulates {α β : Type} (P : α → β → Arena → Prop) (m : Storing α) (m' : Reading β)
    (r : Reader) : Prop :=
  EndsLike P r (m r) (m' r.state)

/-- Whether two readings always end alike, with the same value and with no node stored. -/
def Copies {α : Type} (m : Storing α) (m' : Reading α) : Prop :=
  ∀ r, Simulates (fun a b arena => a = b ∧ arena = r.arena) m m' r

variable {α β γ δ : Type}

namespace Simulates

variable {P : α → β → Arena → Prop} {Q : γ → δ → Arena → Prop} {m : Storing α} {m' : Reading β}
  {r : Reader}

theorem pure {a : α} {b : β} (related : P a b r.arena) :
    Simulates P (Pure.pure a) (Pure.pure b) r := .ok related

theorem refuse {fault : Fault} :
    Simulates P (Script.Steps.refuse fault) (Script.Steps.refuse fault) r := .error

/-- The second part starts where the first one ended: with its lexemes and its arena, in the same
    scopes. -/
theorem bind {k : α → Storing γ} {k' : β → Reading δ} (h : Simulates P m m' r)
    (hk : ∀ a b lexemes arena, P a b arena →
      Simulates Q (k a) (k' b) { r with lexemes, arena }) :
    Simulates Q (m >>= k) (m' >>= k') r := by
  change EndsLike Q r (EStateM.bind m k r) (EStateM.bind m' k' r.state)
  unfold Simulates at h
  rw [EStateM.bind, EStateM.bind]
  generalize m r = x, m' r.state = y at h
  cases h with
  | @ok a b lexemes arena related =>
    have later : EndsLike Q _ _ _ := hk a b lexemes arena related
    change EndsLike Q r (k a { r with lexemes, arena }) (k' b ⟨lexemes, arena.nodes.length⟩)
    unfold state at later
    generalize k a _ = x, k' b _ = y at later ⊢
    cases later with
    | ok related => exact .ok related
    | error => exact .error
  | error => exact .error

/-- A part is read in front of what stores nodes. -/
theorem after {m : Storing α} {m' : Reading α} {k : α → Storing γ} {k' : α → Reading δ}
    (h : Copies m m') (hk : ∀ a lexemes, Simulates Q (k a) (k' a) { r with lexemes }) :
    Simulates Q (m >>= k) (m' >>= k') r :=
  bind (h r) fun a b lexemes arena ⟨same, unchanged⟩ => by
    subst same unchanged
    exact hk a lexemes

/-- A branch that both take. -/
theorem ite {p : Prop} [Decidable p] {n : Storing α} {n' : Reading β} (hm : Simulates P m m' r)
    (hn : Simulates P n n' r) : Simulates P (if p then m else n) (if p then m' else n') r := by
  split
  · exact hm
  · exact hn

/-- What stands behind a refusal is read on neither side. -/
theorem refuse_bind {fault : Fault} {k : α → Storing γ} {k' : α → Reading δ} :
    Simulates Q (Script.Steps.refuse fault >>= k) (Script.Steps.refuse fault >>= k') r :=
  bind (P := fun _ _ _ => False) refuse fun _ _ _ _ impossible => impossible.elim

/-- Whatever may be refused on both sides. -/
theorem guard {p : Prop} [Decidable p] {fault : Fault} {u : PUnit → Storing α}
    {u' : PUnit → Reading β} (h : Simulates P m m' r) :
    Simulates P (if p then Script.Steps.refuse fault >>= u else m)
      (if p then Script.Steps.refuse fault >>= u' else m') r :=
  ite refuse_bind h

/-- A loop keeps what each of its turns keeps. Both loops end together, as they look at the same
    tokens. -/
theorem foldWhile {I : α → β → Arena → Prop} {p : Token → Bool} {step : α → Storing α}
    {step' : β → Reading β}
    (h : ∀ a b lexemes arena, I a b arena →
      Simulates I (step a) (step' b) { r with lexemes, arena }) {a : α} {b : β}
    (start : I a b r.arena) :
    Simulates I (Script.Steps.foldWhile p step a) (Script.Steps.foldWhile p step' b) r := by
  have loop : ∀ count a b lexemes arena, I a b arena →
      Simulates I (Unread.loop p step count a) (Unread.loop p step' count b)
        { r with lexemes, arena } := by
    intro count
    induction count with
    | zero => exact fun a b lexemes arena related => pure related
    | succ count ih =>
      intro a b lexemes arena related
      change Simulates I
        (if lexemes.current.any p then step a >>= Unread.loop p step count else Pure.pure a)
        (if lexemes.current.any p then step' b >>= Unread.loop p step' count else Pure.pure b) _
      exact ite (bind (h a b lexemes arena related) ih) (pure related)
  exact loop _ a b r.lexemes r.arena start

end Simulates

namespace Copies

variable {m : Storing α} {m' : Reading α}

theorem pure (a : α) : Copies (Pure.pure a) (Pure.pure a) := fun _ => .pure ⟨rfl, rfl⟩

theorem refuse {fault : Fault} :
    Copies (Script.Steps.refuse fault : Storing α) (Script.Steps.refuse fault) := fun _ => .refuse

/-- Copies one behind the other. -/
theorem bind {k : α → Storing β} {k' : α → Reading β} (h : Copies m m')
    (hk : ∀ a, Copies (k a) (k' a)) : Copies (m >>= k) (m' >>= k') :=
  fun r => .after h fun a lexemes => hk a { r with lexemes }

theorem ite {p : Prop} [Decidable p] {n : Storing α} {n' : Reading α} (hm : Copies m m')
    (hn : Copies n n') : Copies (if p then m else n) (if p then m' else n') :=
  fun r => .ite (hm r) (hn r)

theorem guard {p : Prop} [Decidable p] {fault : Fault} {u : PUnit → Storing α}
    {u' : PUnit → Reading α} (h : Copies m m') :
    Copies (if p then Script.Steps.refuse fault >>= u else m)
      (if p then Script.Steps.refuse fault >>= u' else m') := fun r => .guard (h r)

/-! ### Steps -/

theorem current : Copies Script.Steps.current Script.Steps.current := fun _ => .ok ⟨rfl, rfl⟩

theorem following : Copies Script.Steps.following Script.Steps.following := fun _ => .ok ⟨rfl, rfl⟩

theorem currentIs (p : Token → Bool) : Copies (Script.currentIs p) (Script.currentIs p) :=
  bind current fun _ => pure _

/-- Three cases: enough tokens left, too few and the text closed, too few and a quote open. -/
theorem advance : Copies Script.Steps.advance Script.Steps.advance := by
  rintro ⟨⟨tokens, unterminated⟩, arena, scopes, depth⟩
  match tokens, unterminated with
  | _ :: _ :: _ :: _, _ => exact .ok ⟨rfl, rfl⟩
  | [], none | [_], none | [_, _], none => exact .ok ⟨rfl, rfl⟩
  | [], some _ | [_], some _ | [_, _], some _ => exact .error

theorem ofExcept (result : Except Fault α) :
    Copies (Script.ofExcept result) (Script.ofExcept result) := by
  cases result with
  | ok a => exact pure a
  | error fault => exact refuse

theorem foldWhile {p : Token → Bool} {step : α → Storing α} {step' : α → Reading α}
    (h : ∀ a, Copies (step a) (step' a)) (a : α) :
    Copies (Script.Steps.foldWhile p step a) (Script.Steps.foldWhile p step' a) :=
  fun r => .foldWhile (fun a b lexemes arena ⟨same, unchanged⟩ => by
    subst same unchanged
    exact h a { r with lexemes }) ⟨rfl, rfl⟩

/-- Items in front of each other, then turned around on both sides. -/
theorem many {p : Token → Bool} {item : Storing α} {item' : Reading α} (h : Copies item item') :
    Copies (Script.many p item) (Script.many p item') :=
  bind (foldWhile (fun _ => bind h fun _ => pure _) []) fun _ => pure _

/-! ### Parts of clauses -/

variable {rules : Rules}

/-- Splitting a name is the same on both sides, as the token in sight is. -/
theorem name : Copies (Script.name rules) (Script.name rules) := by
  refine bind current fun found => ?_
  match found with
  | some (.word _) => exact ofExcept _
  | some (.quoted _) => exact guard (ofExcept _)
  | none | some .openParen | some .closeParen | some .slash | some (.comparison _)
  | some (.symbol _) => exact refuse

theorem modifierName : Copies Script.modifierName Script.modifierName := by
  refine bind current fun found => ?_
  match found with
  | some (.word _) => exact ofExcept _
  | none | some .openParen | some .closeParen | some .slash | some (.comparison _)
  | some (.symbol _) | some (.quoted _) => exact refuse

theorem modifierValue : Copies Script.modifierValue Script.modifierValue := by
  refine bind current fun found => ?_
  match found with
  | some (.word _) | some (.quoted _) => exact bind advance fun _ => pure _
  | none | some .openParen | some .closeParen | some .slash | some (.comparison _)
  | some (.symbol _) => exact refuse

/-- The comparison decides whether a value follows. -/
theorem modifier : Copies Script.modifier Script.modifier := by
  refine bind advance fun _ => bind modifierName fun _ => bind advance fun _ => ?_
  refine bind current fun found => ?_
  match found with
  | some (.comparison _) => exact bind advance fun _ => bind modifierValue fun _ => pure _
  | none | some .openParen | some .closeParen | some .slash | some (.word _) | some (.quoted _)
  | some (.symbol _) => exact pure _

theorem modifiers : Copies Script.modifiers Script.modifiers := many modifier

/-- A comparison, a word such as `any`, or a refusal. -/
theorem relation : Copies Script.relation Script.relation := by
  refine bind current fun found => ?_
  match found with
  | some (.comparison _) => exact bind advance fun _ => bind modifiers fun _ => pure _
  | some (.word _) =>
    exact bind (ofExcept _) fun _ => bind advance fun _ => bind modifiers fun _ => pure _
  | none | some .openParen | some .closeParen | some .slash | some (.quoted _)
  | some (.symbol _) => exact refuse

/-- `and`, `or`, `not`, `prox`, in any ASCII case. -/
theorem boolean : Copies Script.boolean Script.boolean := by
  refine bind current fun found => ?_
  match found with
  | some (.word w) =>
    cases known : Connective.ofWord? w with
    | some _ =>
      simp only [known]
      exact bind advance fun _ => bind modifiers fun _ => pure _
    | none =>
      simp only [known]
      exact refuse
  | none | some .openParen | some .closeParen | some .slash | some (.comparison _)
  | some (.quoted _) | some (.symbol _) => exact refuse

theorem sortKey : Copies (Script.sortKey rules) (Script.sortKey rules) :=
  bind name fun _ => bind advance fun _ => bind modifiers fun _ => pure _

/-- At least one key behind `sortby`. -/
theorem sortKeys : Copies (Script.sortKeys rules) (Script.sortKeys rules) :=
  bind (currentIs _) fun _ => ite (many sortKey) refuse

theorem term : Copies (Script.term rules) (Script.term rules) :=
  bind current fun _ => bind (ofExcept _) fun _ => bind advance fun _ => pure _

/-- A name is read if `=` stands behind it. -/
theorem prefixName : Copies Script.prefixName Script.prefixName := by
  refine bind following fun _ => ite (bind current fun found => ?_) (pure _)
  match found with
  | some (.word _) => exact bind advance fun _ => bind advance fun _ => pure _
  | none | some .openParen | some .closeParen | some .slash | some (.comparison _)
  | some (.quoted _) | some (.symbol _) => exact refuse

theorem identifierSegment : Copies Script.identifierSegment Script.identifierSegment := by
  refine bind advance fun _ => bind current fun found => ?_
  match found with
  | some (.word _) => exact bind advance fun _ => pure _
  | none | some .openParen | some .closeParen | some .slash | some (.comparison _)
  | some (.quoted _) | some (.symbol _) => exact pure _

/-- A quoted text, or a word with slashes. -/
theorem identifier : Copies (Script.identifier rules) (Script.identifier rules) := by
  refine bind current fun found => ?_
  match found with
  | some (.quoted _) => exact guard (bind advance fun _ => pure _)
  | some (.word _) => exact bind advance fun _ => bind (many identifierSegment) fun _ => pure _
  | none | some .openParen | some .closeParen | some .slash | some (.comparison _)
  | some (.symbol _) => exact refuse

/-- Both sides build the same map of short names. -/
theorem declarations : Copies (Script.declarations rules (storing rules))
    (Script.declarations rules Script.trees) :=
  foldWhile (fun _ => bind advance fun _ => bind prefixName fun _ => bind identifier fun _ =>
    guard (pure _)) _

end Copies

end ContextualQuery
