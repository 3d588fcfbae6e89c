import ContextualQuery.Proofs.Reading.Run
import ContextualQuery.Query.Session

/-! What every step of reading keeps, and what it may be refused for.

    Reading is made of few steps: dropping a token, numbering a node, finding a fault. What these keep
    of the state, and what the rules let them find, holds of reading each part of a query
    (`Conduct`) and of reading a whole tree (`Conduct.tree`), whatever it ends with. A text is refused
    for the fault that reading its tokens ends with (`fault_of_attempt`). -/

namespace ContextualQuery

/-- Whether a part of a query may be refused for a fault: three faults only where a switch is on,
    while the limit of depth is no matter of parts. -/
def Rules.Refuses (rules : Rules) : Fault → Prop
  | .tooDeep => False
  | .emptyTerm _ => rules.rejectEmptyTerm = true
  | .quotedName _ => rules.rejectQuotedName = true
  | .duplicatePrefix _ => rules.rejectDuplicatePrefix = true
  | _ => True

namespace Reading

open Unicode

variable {α β : Type} {rules : Rules}

/-! ### Ends of a reading -/

/-- Whether a reading ends with a value and a state as asked, or is refused for a fault as asked. -/
def Ends (Q : α → State → Prop) (E : Fault → Prop) (m : Reading α) (s : State) : Prop :=
  match m s with
  | .ok a t => Q a t
  | .error f _ => E f

namespace Ends

variable {Q Q' : α → State → Prop} {P : β → State → Prop} {E E' : Fault → Prop} {m : Reading α}
  {k : α → Reading β} {s t : State} {a : α} {f : Fault}

theorem pure (h : Q a s) : Ends Q E (pure a) s := h

theorem refuse (h : E f) : Ends Q E (refuse f) s := h

/-- What was asked of the end is known where it is reached. -/
theorem of_ok (h : Ends Q E m s) (run : m s = .ok a t) : Q a t := by
  rwa [Ends, run] at h

/-- Nothing but the faults `E` is found. -/
theorem of_error (h : Ends Q E m s) (run : m s = .error f t) : E f := by
  rwa [Ends, run] at h

/-- Less may be asked, and more faults allowed. -/
theorem mono (h : Ends Q E m s) (hQ : ∀ a t, Q a t → Q' a t) (hE : ∀ f, E f → E' f) :
    Ends Q' E' m s := by
  unfold Ends at h ⊢
  cases run : m s with
  | ok a t =>
    rw [run] at h
    exact hQ a t h
  | error f t =>
    rw [run] at h
    exact hE f h

/-- One reading behind another; whatever refuses the first refuses both. -/
theorem bind (h : Ends Q E m s) (hk : ∀ a t, Q a t → Ends P E (k a) t) : Ends P E (m >>= k) s := by
  unfold Ends at h ⊢
  rw [bind_run]
  cases run : m s with
  | ok a t =>
    rw [run] at h
    exact hk a t h
  | error f t =>
    rw [run] at h
    exact h

theorem current {k : Option Token → Reading β} (h : Ends P E (k s.lexemes.current) s) :
    Ends P E (current >>= k) s := h

theorem following {k : Option Token → Reading β} (h : Ends P E (k s.lexemes.following) s) :
    Ends P E (following >>= k) s := h

theorem currentIs {p : Token → Bool} {k : Bool → Reading β}
    (h : Ends P E (k (s.lexemes.current.any p)) s) : Ends P E (currentIs p >>= k) s := h

/-- A fault that is only found where a condition holds. -/
theorem guard {p : Prop} [Decidable p] {u : PUnit → Reading α} (h : p → E f) (hm : Ends Q E m s) :
    Ends Q E (if p then Reading.refuse f >>= u else m) s := by
  split
  next holds => exact h holds
  next => exact hm

/-- The outcome of splitting or checking a text is the outcome of reading it. -/
theorem ofExcept {x : Except Fault α} (ok : ∀ a, x = .ok a → Q a s) (error : ∀ f, x = .error f → E f) :
    Ends Q E (ofExcept x) s := by
  cases x with
  | ok a => exact ok a rfl
  | error f => exact error f rfl

/-- A loop keeps what its steps keep while its condition holds. -/
theorem foldWhile {p : Token → Bool} {step : α → Reading α}
    (h : ∀ a t, Q a t → t.lexemes.current.any p = true → Ends Q E (step a) t) (start : Q a s) :
    Ends Q E (foldWhile p step a) s := by
  have loop : ∀ count a s, Q a s → Ends Q E (Unread.loop p step count a) s := by
    intro count
    induction count with
    | zero => exact fun a s start => start
    | succ count ih =>
      intro a s start
      change Ends Q E (if s.lexemes.current.any p then step a >>= Unread.loop p step count
        else Pure.pure a) s
      split
      next goesOn => exact (h a s start goesOn).bind ih
      next => exact start
  exact loop _ a s start

end Ends

/-! ### What is kept from step to step -/

/-- Whether a reading takes states only to related states and is refused only for the faults `E`. -/
def Keeps (R : State → State → Prop) (E : Fault → Prop) (m : Reading α) : Prop :=
  ∀ s, Ends (fun _ t => R s t) E m s

/-- What the steps of reading have in common: a relation that links the states before and after each
    of them, and the faults that they may find. -/
structure Conduct (rules : Rules) (R : State → State → Prop) (E : Fault → Prop) : Prop where
  refl (s : State) : R s s
  trans {s t u : State} : R s t → R t u → R s u
  dropped {s t : State} : advance s = .ok () t → R s t
  numbered (s : State) : R s { s with created := s.created + 1 }
  refused {f : Fault} : rules.Refuses f → E f

/-- Whoever drops a token is refused for nothing but an unclosed quote. -/
theorem unterminated_of_advance {s t : State} {f : Fault} (h : advance s = .error f t) :
    ∃ text, f = .unterminated text := by
  obtain ⟨⟨ts, quote⟩, n⟩ := s
  match ts, quote, h with
  | [], some text, h | [_], some text, h | [_, _], some text, h =>
    change EStateM.Result.error _ _ = _ at h
    exact ⟨text, (EStateM.Result.error.inj h).1.symm⟩
  | [], none, h | [_], none, h | [_, _], none, h | _ :: _ :: _ :: _, _, h =>
    change EStateM.Result.ok _ _ = _ at h
    contradiction

/-- Names are refused for their dots, under all rules. -/
theorem refuses_of_splitName {s : String} {f : Fault} (h : splitName s = .error f) :
    rules.Refuses f := by
  unfold splitName at h
  split at h
  · split at h
    · obtain rfl := Except.error.inj h
      trivial
    · contradiction
  · contradiction
  · obtain rfl := Except.error.inj h
    trivial

/-- An empty term is refused only under the rule against empty terms. -/
theorem refuses_of_checkTerm {raw inner : String} {f : Fault}
    (h : checkTerm rules raw inner = .error f) : rules.Refuses f := by
  unfold checkTerm at h
  split at h
  · obtain rfl := Except.error.inj h
    trivial
  · split at h
    next empty =>
      obtain rfl := Except.error.inj h
      exact (Bool.and_eq_true_iff.1 empty).2
    next =>
      split at h
      · contradiction
      · obtain rfl := Except.error.inj h
        trivial

/-- Where a term is missing, the token in its place is at fault. -/
theorem refuses_of_termOf {w : Option Token} {f : Fault} (h : termOf rules w = .error f) :
    rules.Refuses f := by
  unfold termOf at h
  split at h
  case h_3 | h_4 | h_5 => exact refuses_of_checkTerm h
  all_goals
    obtain rfl := Except.error.inj h
    trivial

namespace Conduct

variable {R : State → State → Prop} {E : Fault → Prop} (c : Conduct rules R E)
include c

theorem pure (a : α) : Keeps R E (pure a) := fun s => c.refl s

theorem refuse {f : Fault} (h : rules.Refuses f) : Keeps R E (refuse f : Reading α) :=
  fun _ => c.refused h

/-- The relation is transitive, so two parts keep what each of them keeps. -/
theorem bind {m : Reading α} {k : α → Reading β} (hm : Keeps R E m) (hk : ∀ a, Keeps R E (k a)) :
    Keeps R E (m >>= k) :=
  fun s => (hm s).bind fun a t first => (hk a t).mono (fun _ _ second => c.trans first second)
    fun _ h => h

omit c in
theorem ite {p : Prop} [Decidable p] {m n : Reading α} (hm : Keeps R E m) (hn : Keeps R E n) :
    Keeps R E (if p then m else n) := by
  split
  · exact hm
  · exact hn

omit c in
/-- A check that may fail leaves the state alone. -/
theorem guard {p : Prop} [Decidable p] {f : Fault} {u : PUnit → Reading α} {m : Reading α}
    (h : p → E f) (hm : Keeps R E m) : Keeps R E (if p then Reading.refuse f >>= u else m) :=
  fun s => .guard h (hm s)

theorem current : Keeps R E current := c.refl

theorem following : Keeps R E following := c.refl

theorem currentIs (p : Token → Bool) : Keeps R E (currentIs p) := c.refl

theorem newId : Keeps R E newId := c.numbered

/-- Dropping a token is refused for an open quote only, which every set of rules allows. -/
theorem advance : Keeps R E advance := by
  intro s
  unfold Ends
  cases run : Reading.advance s with
  | ok _ t => exact c.dropped run
  | error f t =>
    obtain ⟨text, rfl⟩ := unterminated_of_advance run
    exact c.refused trivial

theorem ofExcept {x : Except Fault α} (h : ∀ f, x = .error f → rules.Refuses f) :
    Keeps R E (ofExcept x) :=
  fun s => .ofExcept (fun _ _ => c.refl s) fun f hf => c.refused (h f hf)

/-- The relation links the states before and after any number of turns. -/
theorem foldWhile (p : Token → Bool) {step : α → Reading α} (h : ∀ a, Keeps R E (step a)) (a : α) :
    Keeps R E (foldWhile p step a) :=
  fun s => .foldWhile (Q := fun _ t => R s t)
    (fun b t before _ => (h b t).mono (fun _ _ once => c.trans before once) fun _ h => h) (c.refl s)

theorem many (p : Token → Bool) {item : Reading α} (h : Keeps R E item) :
    Keeps R E (many p item) :=
  c.bind (c.foldWhile p (fun _ => c.bind h fun _ => c.pure _) []) fun _ => c.pure _

/-! ### The parts of a clause -/

/-- A quoted name is refused under the rule against quoted names. -/
theorem name : Keeps R E (name rules) := by
  refine c.bind c.current fun found => ?_
  split
  · exact c.ofExcept fun _ => refuses_of_splitName
  · exact guard (fun quotes => c.refused quotes) (c.ofExcept fun _ => refuses_of_splitName)
  · exact c.refuse trivial

theorem modifierName : Keeps R E modifierName := by
  refine c.bind c.current fun found => ?_
  split
  · exact c.ofExcept fun _ => refuses_of_splitName
  · exact c.refuse trivial
  · exact c.refuse trivial
  · exact c.refuse trivial

theorem modifierValue : Keeps R E modifierValue := by
  refine c.bind c.current fun found => ?_
  split
  · exact c.bind c.advance fun _ => c.pure _
  · exact c.bind c.advance fun _ => c.pure _
  · exact c.refuse trivial

theorem modifier : Keeps R E modifier := by
  refine c.bind c.advance fun _ => c.bind c.modifierName fun _ => c.bind c.advance fun _ => ?_
  refine c.bind c.current fun found => ?_
  split
  · exact c.bind c.advance fun _ => c.bind c.modifierValue fun _ => c.pure _
  · exact c.pure _

theorem modifiers : Keeps R E modifiers := c.many _ c.modifier

/-- A comparison, or a word that splits as a name does. -/
theorem relation : Keeps R E relation := by
  refine c.bind c.current fun found => ?_
  split
  · exact c.bind c.advance fun _ => c.bind c.modifiers fun _ => c.pure _
  · refine c.bind (c.ofExcept fun _ => refuses_of_splitName) fun _ => ?_
    exact c.bind c.advance fun _ => c.bind c.modifiers fun _ => c.pure _
  · exact c.refuse trivial

theorem boolean : Keeps R E boolean := by
  refine c.bind c.current fun found => ?_
  split
  · split
    · exact c.bind c.advance fun _ => c.bind c.modifiers fun _ => c.pure _
    · exact c.refuse trivial
  · exact c.refuse trivial

theorem sortKey : Keeps R E (sortKey rules) :=
  c.bind c.name fun _ => c.bind c.advance fun _ => c.bind c.modifiers fun _ => c.pure _

theorem sortKeys : Keeps R E (sortKeys rules) :=
  c.bind (c.currentIs _) fun _ => ite (c.many _ c.sortKey) (c.refuse trivial)

theorem term : Keeps R E (term rules) :=
  c.bind c.current fun _ => c.bind (c.ofExcept fun _ => refuses_of_termOf) fun _ =>
    c.bind c.advance fun _ => c.pure _

theorem prefixName : Keeps R E prefixName := by
  refine c.bind c.following fun next => ite (c.bind c.current fun found => ?_) (c.pure _)
  split
  · exact c.bind c.advance fun _ => c.bind c.advance fun _ => c.pure _
  · exact c.refuse trivial

theorem identifierSegment : Keeps R E identifierSegment := by
  refine c.bind c.advance fun _ => c.bind c.current fun found => ?_
  split
  · exact c.bind c.advance fun _ => c.pure _
  · exact c.pure _

/-- The rule against quoted names holds for identifiers as well. -/
theorem identifier : Keeps R E (identifier rules) := by
  refine c.bind c.current fun found => ?_
  split
  · exact guard (fun quotes => c.refused quotes) (c.bind c.advance fun _ => c.pure _)
  · exact c.bind c.advance fun _ => c.bind (c.many _ c.identifierSegment) fun _ => c.pure _
  · exact c.refuse trivial

/-- A name is refused as declared twice under the rule against that. -/
theorem declaration (group : PrefixMap) : Keeps R E (declaration rules group) :=
  c.bind c.advance fun _ => c.bind c.prefixName fun _ => c.bind c.identifier fun _ =>
    guard (fun strict => c.refused (Bool.and_eq_true_iff.1 strict).1) (c.pure _)

theorem declarations : Keeps R E (declarations rules) := c.foldWhile _ c.declaration _

/-! ### Trees -/

theorem newClause (clause : Clause) : Keeps R E (newClause clause) :=
  c.bind c.newId fun _ => c.pure _

theorem newTriple (l : Node) (b : Boolean) (r : Node) : Keeps R E (newTriple l b r) :=
  c.bind c.newId fun _ => c.pure _

/-- A clause creates one node. -/
theorem clause : Keeps R E (clause rules) := by
  refine c.bind c.following fun next => ite (c.bind c.current fun found => ?_) (ite ?_ ?_)
  · exact guard (fun _ => c.refused trivial) (c.bind c.term fun _ => c.newClause _)
  · exact c.bind c.current fun _ => c.refuse trivial
  · refine c.bind c.name fun _ => c.bind c.advance fun _ => c.bind c.relation fun _ => ?_
    exact c.bind c.current fun _ =>
      guard (fun _ => c.refused trivial) (c.bind c.term fun _ => c.newClause _)

section
variable (deep : E .tooDeep)
include deep

/-- The only fault that is not a matter of parts: too many levels below a triple. -/
theorem join {operand : Reading Node} (h : Keeps R E operand) (left : Node) :
    Keeps R E (join rules operand left) :=
  c.bind c.boolean fun _ => c.bind h fun _ => c.bind (c.newTriple _ _ _) fun _ =>
    guard (fun _ => deep) (c.pure _)

theorem chain {operand : Reading Node} (h : Keeps R E operand) : Keeps R E (chain rules operand) :=
  c.bind h fun first => c.bind (c.foldWhile _ (c.join deep h) first) fun _ =>
    c.bind (c.currentIs _) fun _ => ite (c.bind c.advance fun _ => c.bind c.sortKeys fun _ => c.pure _)
      (c.pure _)

omit deep in
/-- No depth is counted here, so `tooDeep` need not be among the faults unless `enter` finds it. -/
theorem subquery {enter : PrefixMap → Reading Node} (h : ∀ group, Keeps R E (enter group)) :
    Keeps R E (subquery rules enter) := by
  refine c.bind (c.currentIs _) fun opened => ite ?_ ?_
  · refine c.bind c.advance fun _ => c.bind c.declarations fun group => c.bind (h group) fun node => ?_
    refine c.bind (c.currentIs _) fun closes => ite (c.bind c.advance fun _ => c.pure _) ?_
    exact c.bind c.current fun _ => c.bind (c.refuse trivial) fun _ => c.bind c.advance fun _ => c.pure _
  · exact c.bind c.declarations fun group => ite c.clause (h group)

/-- By induction on the scopes that may still be opened. Below the last one `tooDeep` is found. -/
theorem inScope (depth : Nat) :
    ∀ (frames : List PrefixMap) (group : PrefixMap), Keeps R E (inScope rules depth frames group) := by
  induction depth with
  | zero => exact fun _ _ _ => deep
  | succ depth ih =>
    intro frames group
    rw [inScope_succ]
    cases again : redeclared? rules frames group with
    | some name => exact c.refuse (redeclared?_eq_some.1 again).1
    | none => exact c.bind (c.chain deep (c.subquery (ih (group :: frames)))) fun _ => c.pure _

/-- A whole query, or the token that is left behind it. -/
theorem tree : Keeps R E (tree rules) := by
  refine c.bind c.declarations fun group => c.bind (c.inScope deep _ _ _) fun root => ?_
  refine c.bind c.current fun found => ?_
  split
  · exact c.bind (c.refuse trivial) fun _ => c.pure _
  · exact c.pure _

end

end Conduct

end Reading

/-! ### Outcomes -/

/-- The query that a text is, or the fault that it is refused for. -/
def attempt (rules : Rules) (source : String) : Except Fault Query :=
  match Reading.start (.ofText rules.wordChars source) with
  | .ok s =>
    match (Reading.query rules source).run s with
    | .ok q _ => .ok q
    | .error f _ => .error f
  | .error f => .error f

/-- A text is refused with the report of its fault. -/
theorem parse_eq_attempt (rules : Rules) (source : String) :
    parse rules source = (attempt rules source).mapError (·.diagnostic source) := by
  simp only [parse, Session.start, attempt]
  cases Reading.start (.ofText rules.wordChars source) with
  | error f => rfl
  | ok s =>
    simp only [bind, Except.bind, Session.read]
    cases (Reading.query rules source).run s <;> rfl

/-- Reports hide nothing from what is accepted. -/
theorem parse_eq_ok_iff_attempt {rules : Rules} {source : String} {q : Query} :
    parse rules source = .ok q ↔ attempt rules source = .ok q := by
  rw [parse_eq_attempt]
  cases attempt rules source <;> simp [Except.mapError]

/-- A report is the report of one fault. -/
theorem parse_eq_error_iff_attempt {rules : Rules} {source : String} {d : Diagnostic} :
    parse rules source = .error d ↔
      ∃ f, attempt rules source = .error f ∧ f.diagnostic source = d := by
  rw [parse_eq_attempt]
  cases attempt rules source <;> simp [Except.mapError]

/-- What a text is refused for, given what reading its tokens is refused for. -/
theorem fault_of_attempt {rules : Rules} {source : String} {E : Fault → Prop} {f : Fault}
    (cut : ∀ text ∈ (Lexemes.ofText rules.wordChars source).unterminated, E (.unterminated text))
    (ends : ∀ s, s.lexemes = .ofText rules.wordChars source →
      Reading.Ends (fun _ _ => True) E (Reading.query rules source) s)
    (h : attempt rules source = .error f) : E f := by
  unfold attempt at h
  cases started : Reading.start (.ofText rules.wordChars source) with
  | error g =>
    rw [started] at h
    obtain rfl := Except.error.inj h
    unfold Reading.start at started
    split at started <;> cases started
    next unclosed => exact cut _ (by rw [unclosed]; rfl)
  | ok s =>
    have same : s.lexemes = .ofText rules.wordChars source := by rw [Reading.eq_of_start started]
    rw [started] at h
    simp only at h
    cases run : (Reading.query rules source).run s with
    | ok q t =>
      rw [run] at h
      cases h
    | error g t =>
      rw [run] at h
      obtain rfl := Except.error.inj h
      exact (ends s same).of_error run

end ContextualQuery
