import ContextualQuery.Proofs.Reading.Conduct

/-! What tighter rules change in reading.

    A switch that is on and a limit that is lower stop a reading earlier, for a fault of their own.
    Up to there the reading goes as before: each part of a query, and with it the whole, is read with
    the same outcome by tighter rules, unless it is refused for such an added fault
    (`Rules.Tightens.attempt_eq`). -/

namespace ContextualQuery

/-! ### Tighter rules -/

/-- Whether a switch is as before, or has been turned on at the price of added faults. -/
def Tightened (priced : Prop) (tight loose : Bool) : Prop :=
  tight = loose ∨ tight = true ∧ priced

/-- Whether a limit is as before, or has been lowered at the price of added faults. -/
def Reduced (priced : Prop) (tight loose : Nat) : Prop :=
  tight = loose ∨ tight ≤ loose ∧ priced

/-- Whether rules refuse what other rules refuse, or are tighter where they may add a fault. -/
structure Rules.Tightens (added : Fault → Prop) (tight loose : Rules) : Prop where
  emptyTerm : Tightened (∀ term, added (.emptyTerm term)) tight.rejectEmptyTerm loose.rejectEmptyTerm
  quotedName : Tightened (∀ text, added (.quotedName text)) tight.rejectQuotedName
    loose.rejectQuotedName
  duplicatePrefix : Tightened (∀ name, added (.duplicatePrefix name)) tight.rejectDuplicatePrefix
    loose.rejectDuplicatePrefix
  wordChars : tight.wordChars = loose.wordChars
  defaultPrefixes : tight.defaultPrefixes = loose.defaultPrefixes
  maxDepth : Reduced (added .tooDeep) tight.maxDepth loose.maxDepth

namespace Reading

variable {α β : Type} {added : Fault → Prop}

/-- Whether a reading goes as another one, unless it is refused for an added fault. -/
def Restricts (added : Fault → Prop) (tight loose : Reading α) : Prop :=
  ∀ s, tight s = loose s ∨ ∃ f t, tight s = .error f t ∧ added f

namespace Restricts

theorem refl (m : Reading α) : Restricts added m m := fun _ => .inl rfl

/-- Tighter rules may refuse what the looser ones go on with. -/
theorem refuse {f : Fault} (h : added f) (m : Reading α) : Restricts added (refuse f) m :=
  fun s => .inr ⟨f, s, rfl, h⟩

/-- The second part is compared where the first one went through under both. -/
theorem bind {m m' : Reading α} {k k' : α → Reading β} (hm : Restricts added m m')
    (hk : ∀ a, Restricts added (k a) (k' a)) : Restricts added (m >>= k) (m' >>= k') := by
  intro s
  rw [bind_run, bind_run]
  obtain same | ⟨f, t, refused, adds⟩ := hm s
  · rw [same]
    cases m' s with
    | ok a t => exact hk a t
    | error f t => exact .inl rfl
  · rw [refused]
    exact .inr ⟨f, t, rfl, adds⟩

theorem ite {p : Prop} [Decidable p] {m m' n n' : Reading α} (hm : Restricts added m m')
    (hn : Restricts added n n') : Restricts added (if p then m else n) (if p then m' else n') := by
  split
  · exact hm
  · exact hn

/-- A fault that is found under the same condition, or is an added one. -/
theorem guard {p p' : Prop} [Decidable p] [Decidable p'] {f : Fault} {m m' : Reading α}
    (hp : (p ↔ p') ∨ (p' → p) ∧ added f) (hm : Restricts added m m') :
    Restricts added (if p then Reading.refuse f >>= fun _ : PUnit => m else m)
      (if p' then Reading.refuse f >>= fun _ : PUnit => m' else m') := by
  intro s
  by_cases here : p
  · rw [if_pos here]
    obtain same | ⟨-, adds⟩ := hp
    · rw [if_pos (same.1 here)]
      exact .inl rfl
    · exact .inr ⟨f, s, rfl, adds⟩
  · rw [if_neg here, if_neg (hp.elim (fun same => here ∘ same.2) fun more => here ∘ more.1)]
    exact hm s

/-- By induction on the turns, which are the same under both rules until one refuses. -/
theorem foldWhile (p : Token → Bool) {step step' : α → Reading α}
    (h : ∀ a, Restricts added (step a) (step' a)) (a : α) :
    Restricts added (foldWhile p step a) (foldWhile p step' a) := by
  have loop : ∀ count a, Restricts added (Unread.loop p step count a)
      (Unread.loop p step' count a) := by
    intro count
    induction count with
    | zero => exact fun a => refl _
    | succ count ih =>
      exact fun a => bind (refl _) fun goesOn => ite (bind (h a) ih) (refl _)
  exact fun s => loop _ a s

theorem many (p : Token → Bool) {item item' : Reading α} (h : Restricts added item item') :
    Restricts added (many p item) (many p item') :=
  bind (foldWhile p (fun _ => bind h fun _ => refl _) []) fun _ => refl _

end Restricts

end Reading

namespace Rules.Tightens

open Reading

variable {added : Fault → Prop} {tight loose : Rules} (h : Rules.Tightens added tight loose)
include h

/-! ### The parts of a clause -/

/-- A quoted name may be refused. -/
theorem name : Restricts added (Reading.name tight) (Reading.name loose) := by
  refine .bind (.refl _) fun found => ?_
  split
  · exact .refl _
  · refine .guard ?_ (.refl _)
    obtain same | ⟨on, adds⟩ := h.quotedName
    · exact .inl (by rw [same])
    · exact .inr ⟨fun _ => on, adds _⟩
  · exact .refl _

theorem sortKeys : Restricts added (Reading.sortKeys tight) (Reading.sortKeys loose) :=
  .bind (.refl _) fun _ =>
    .ite (.many _ (.bind h.name fun _ => .bind (.refl _) fun _ => .refl _)) (.refl _)

/-- An empty term may be refused; anchors and escapes are judged alike. -/
theorem checkTerm (raw inner : String) :
    Reading.checkTerm tight raw inner = Reading.checkTerm loose raw inner ∨
      ∃ f, Reading.checkTerm tight raw inner = .error f ∧ added f := by
  unfold Reading.checkTerm
  obtain same | ⟨on, adds⟩ := h.emptyTerm
  · rw [same]
    exact .inl rfl
  · by_cases anchors : raw.toList.all (· == '^') = true
    · rw [if_pos anchors, if_pos anchors]
      exact .inl rfl
    · rw [if_neg anchors, if_neg anchors, on]
      cases inner.isEmpty with
      | true => exact .inr ⟨_, rfl, adds raw⟩
      | false => exact .inl rfl

theorem termOf (w : Option Token) :
    Reading.termOf tight w = Reading.termOf loose w ∨
      ∃ f, Reading.termOf tight w = .error f ∧ added f := by
  unfold Reading.termOf
  split
  case h_3 | h_4 | h_5 => exact h.checkTerm _ _
  all_goals exact .inl rfl

theorem term : Restricts added (Reading.term tight) (Reading.term loose) := by
  refine .bind (.refl _) fun found => .bind ?_ fun _ => .refl _
  obtain same | ⟨f, refused, adds⟩ := h.termOf found
  · rw [same]
    exact .refl _
  · rw [refused]
    exact .refuse adds _

/-- A quoted identifier may be refused. -/
theorem identifier : Restricts added (Reading.identifier tight) (Reading.identifier loose) := by
  refine .bind (.refl _) fun found => ?_
  split
  · refine .guard ?_ (.refl _)
    obtain same | ⟨on, adds⟩ := h.quotedName
    · exact .inl (by rw [same])
    · exact .inr ⟨fun _ => on, adds _⟩
  · exact .refl _
  · exact .refl _

/-- A name that is declared twice may be refused. -/
theorem declaration (group : PrefixMap) :
    Restricts added (Reading.declaration tight group) (Reading.declaration loose group) := by
  refine .bind (.refl _) fun _ => .bind (.refl _) fun name => .bind h.identifier fun _ => ?_
  refine .guard ?_ (.refl _)
  obtain same | ⟨on, adds⟩ := h.duplicatePrefix
  · exact .inl (by rw [same])
  · exact .inr ⟨fun taken => by rw [on]; exact (Bool.and_eq_true_iff.1 taken).2, adds _⟩

theorem declarations :
    Restricts added (Reading.declarations tight) (Reading.declarations loose) :=
  .foldWhile _ h.declaration _

/-! ### Trees -/

theorem clause : Restricts added (Reading.clause tight) (Reading.clause loose) := by
  refine .bind (.refl _) fun next => .ite (.bind (.refl _) fun found => ?_) (.ite (.refl _) ?_)
  · exact .guard (.inl .rfl) (.bind h.term fun _ => .refl _)
  · refine .bind h.name fun _ => .bind (.refl _) fun _ => .bind (.refl _) fun _ => ?_
    exact .bind (.refl _) fun _ => .guard (.inl .rfl) (.bind h.term fun _ => .refl _)

/-- A triple of too many levels may be refused. -/
theorem join {operand operand' : Reading Node} (inner : Restricts added operand operand')
    (left : Node) :
    Restricts added (Reading.join tight operand left) (Reading.join loose operand' left) := by
  refine .bind (.refl _) fun _ => .bind inner fun _ => .bind (.refl _) fun node => ?_
  refine .guard ?_ (.refl _)
  obtain same | ⟨lower, adds⟩ := h.maxDepth
  · exact .inl (by rw [same])
  · exact .inr ⟨fun exceeds => Nat.lt_of_le_of_lt lower exceeds, adds⟩

theorem chain {operand operand' : Reading Node} (inner : Restricts added operand operand') :
    Restricts added (Reading.chain tight operand) (Reading.chain loose operand') :=
  .bind inner fun _ => .bind (.foldWhile _ (h.join inner) _) fun _ => .bind (.refl _) fun _ =>
    .ite (.bind (.refl _) fun _ => .bind h.sortKeys fun _ => .refl _) (.refl _)

theorem subquery {enter enter' : PrefixMap → Reading Node}
    (inner : ∀ group, Restricts added (enter group) (enter' group)) :
    Restricts added (Reading.subquery tight enter) (Reading.subquery loose enter') := by
  refine .bind (.refl _) fun opened => .ite ?_ ?_
  · refine .bind (.refl _) fun _ => .bind h.declarations fun group => ?_
    exact .bind (inner group) fun _ => .refl _
  · exact .bind h.declarations fun group => .ite h.clause (inner group)

/-- The looser limit leaves at least as many scopes to be opened, and a name that is declared again
    may be refused. -/
theorem inScope (depth : Nat) : ∀ {depth' : Nat}, Reduced (added .tooDeep) depth depth' →
    ∀ (frames : List PrefixMap) (group : PrefixMap),
      Restricts added (Reading.inScope tight depth frames group)
        (Reading.inScope loose depth' frames group) := by
  induction depth with
  | zero =>
    intro depth' reduced frames group
    obtain rfl | ⟨-, adds⟩ := reduced
    · exact .refl _
    · exact .refuse adds _
  | succ depth ih =>
    intro depth' reduced frames group
    obtain ⟨below, rfl, reducedBelow⟩ : ∃ below, depth' = below + 1 ∧
        Reduced (added .tooDeep) depth below := by
      obtain rfl | ⟨le, adds⟩ := reduced
      · exact ⟨depth, rfl, .inl rfl⟩
      · exact ⟨depth' - 1, by omega, .inr ⟨by omega, adds⟩⟩
    rw [inScope_succ, inScope_succ]
    -- A name that clashes is refused wherever the switch is on; without one the switch is idle.
    cases again : redeclared? tight frames group with
    | some name =>
      obtain same | ⟨-, adds⟩ := h.duplicatePrefix
      · rw [redeclared?, same, ← redeclared?] at again
        rw [again]
        exact .refl _
      · exact .refuse (adds name) _
    | none =>
      have idle : redeclared? loose frames group = none := redeclared?_eq_none.2 fun on =>
        redeclared?_eq_none.1 again (h.duplicatePrefix.elim (·.trans on) (·.1))
      rw [idle]
      exact .bind (h.chain (h.subquery (ih reducedBelow (group :: frames)))) fun _ => .refl _

/-- A query under tighter rules is read alike or refused for an added fault. -/
theorem query (source : String) :
    Restricts added (Reading.query tight source) (Reading.query loose source) := by
  refine .bind (.bind h.declarations fun group => ?_) fun _ => .bind (.refl _) fun _ => ?_
  · exact .bind (h.inScope _ h.maxDepth _ _) fun _ => .refl _
  · rw [h.defaultPrefixes]
    exact .refl _

/-- A text has the same outcome by tighter rules, unless it is refused for an added fault. -/
theorem attempt_eq (source : String) :
    attempt tight source = attempt loose source ∨
      ∃ f, attempt tight source = .error f ∧ added f := by
  unfold attempt
  rw [h.wordChars]
  cases Reading.start (.ofText loose.wordChars source) with
  | error f => exact .inl rfl
  | ok s =>
    simp only
    obtain same | ⟨f, t, refused, adds⟩ := h.query source s
    · exact .inl (by rw [EStateM.run, same, EStateM.run])
    · exact .inr ⟨f, by rw [EStateM.run, refused], adds⟩

end Rules.Tightens
end ContextualQuery
