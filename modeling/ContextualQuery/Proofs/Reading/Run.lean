import Mathlib.Data.List.Basic
import ContextualQuery.Query.Reading.Tree

/-! What a run of a reading ends with.

    A successful run of a composed reading is a successful run of each of its steps, one behind the
    other (`bind_eq_ok`). On a text without an unclosed quote every step just takes tokens from the
    front (`closed`), so a loop that drops a token in every round is never cut short: it ends where
    its condition fails (`foldWhile_eq_ok`). -/

namespace ContextualQuery.Reading

variable {α β : Type}

/-- A state without an unclosed quote ahead. -/
def closed (tokens : List Token) (created : Nat) : State := ⟨{ tokens }, created⟩

/-! ### Steps -/

theorem pure_eq_ok {a b : α} {s t : State} : (pure a : Reading α) s = .ok b t ↔ a = b ∧ s = t := by
  change EStateM.Result.ok a s = .ok b t ↔ _
  rw [EStateM.Result.ok.injEq]

theorem refuse_eq_ok {f : Fault} {b : α} {s t : State} :
    (refuse f : Reading α) s = .ok b t ↔ False := by
  change EStateM.Result.error f s = .ok b t ↔ _
  simp

theorem bind_run (x : Reading α) (f : α → Reading β) (s : State) :
    (x >>= f) s = match x s with
      | .ok a t => f a t
      | .error e t => .error e t := by
  change EStateM.bind x f s = _
  rw [EStateM.bind]
  cases x s <;> rfl

/-- Two parts succeed, one behind the other. -/
theorem bind_eq_ok {x : Reading α} {f : α → Reading β} {b : β} {s t : State} :
    (x >>= f) s = .ok b t ↔ ∃ a r, x s = .ok a r ∧ f a r = .ok b t := by
  rw [bind_run]
  cases x s with
  | ok a r => simp
  | error e r => simp

theorem map_eq_ok {f : α → β} {x : Reading α} {b : β} {s t : State} :
    (f <$> x) s = .ok b t ↔ ∃ a, x s = .ok a t ∧ f a = b := by
  rw [map_eq_pure_bind, bind_eq_ok]
  simp [pure_eq_ok, and_comm]

theorem bind_congr_left {x y : Reading α} {f : α → Reading β} {s : State} (same : x s = y s) :
    (x >>= f) s = (y >>= f) s := by
  rw [bind_run, bind_run, same]

theorem bind_congr_right {x : Reading α} {f g : α → Reading β} {s : State}
    (same : ∀ a t, x s = .ok a t → f a t = g a t) : (x >>= f) s = (x >>= g) s := by
  rw [bind_run, bind_run]
  cases run : x s with
  | ok a t => exact same a t run
  | error e t => rfl

/-- A check was passed. -/
theorem guard_eq_ok {c : Prop} [Decidable c] {f : Fault} {m : Unit → Reading α} {a : α}
    {s t : State} :
    (if c then refuse f >>= m else m ()) s = .ok a t ↔ ¬c ∧ m () s = .ok a t := by
  split
  next h => simp [bind_eq_ok, refuse_eq_ok, h]
  next h => simp [h]

theorem ofExcept_eq_ok {x : Except Fault α} {a : α} {s t : State} :
    ofExcept x s = .ok a t ↔ x = .ok a ∧ s = t := by
  cases x with
  | ok b => simp [ofExcept, Script.ofExcept, pure_eq_ok]
  | error f => simp [ofExcept, Script.ofExcept, refuse_eq_ok]

theorem currentIs_eq_ok {p : Token → Bool} {b : Bool} {s t : State} :
    currentIs p s = .ok b t ↔ s.lexemes.current.any p = b ∧ s = t :=
  pure_eq_ok (a := s.lexemes.current.any p)

theorem current_bind {f : Option Token → Reading α} (s : State) :
    (current >>= f) s = f s.lexemes.current s := rfl

theorem following_bind {f : Option Token → Reading α} (s : State) :
    (following >>= f) s = f s.lexemes.following s := rfl

theorem currentIs_bind {p : Token → Bool} {f : Bool → Reading α} (s : State) :
    (currentIs p >>= f) s = f (s.lexemes.current.any p) s := rfl

/-! ### Scopes -/

/-- The first name of a group that is declared in a group around it, where the rules refuse it. -/
def redeclared? (rules : Rules) (frames : List PrefixMap) (group : PrefixMap) : Option String :=
  if rules.rejectDuplicatePrefix then
    group.names.find? fun name => frames.any (·.names.contains name)
  else none

variable {rules : Rules} {frames : List PrefixMap} {group : PrefixMap}

/-- Strict rules, and a name that is declared around the group. -/
theorem redeclared?_eq_some {name : String} : redeclared? rules frames group = some name ↔
    rules.rejectDuplicatePrefix = true ∧
      (group.names.find? fun name => frames.any (·.names.contains name)) = some name := by
  unfold redeclared?
  split <;> simp_all

/-- Lenient rules, or no such name. -/
theorem redeclared?_eq_none : redeclared? rules frames group = none ↔
    (rules.rejectDuplicatePrefix = true →
      (group.names.find? fun name => frames.any (·.names.contains name)) = none) := by
  unfold redeclared?
  split <;> simp_all

/-- A scope is opened by a group that declares no name again, and then it is a chain. -/
theorem inScope_succ (depth : Nat) : inScope rules (depth + 1) frames group =
    match redeclared? rules frames group with
    | some name => refuse (.duplicatePrefix name)
    | none => do
      let node ← chain rules (subquery rules (inScope rules depth (group :: frames)))
      return node.declare group := by
  rw [inScope, Script.inScope]
  simp only [Script.trees, pure_bind, List.any_map, Function.comp_def, id_eq, redeclared?]
  generalize List.find? _ _ = found
  cases rules.rejectDuplicatePrefix <;> cases found <;> rfl

/-! ### Closed states -/

@[simp] theorem closed_current (ts : List Token) (n : Nat) :
    (closed ts n).lexemes.current = ts.head? := rfl

@[simp] theorem closed_following (ts : List Token) (n : Nat) :
    (closed ts n).lexemes.following = ts[1]? := rfl

@[simp] theorem closed_created (ts : List Token) (n : Nat) : (closed ts n).created = n := rfl

/-- Where no quote is open, dropping a token always succeeds. -/
theorem advance_closed (ts : List Token) (n : Nat) :
    advance (closed ts n) = .ok () (closed ts.tail n) := by
  match ts with
  | [] | [_] | [_, _] | _ :: _ :: _ :: _ => rfl

theorem advance_bind {f : Unit → Reading α} (ts : List Token) (n : Nat) :
    (advance >>= f) (closed ts n) = f () (closed ts.tail n) := by
  rw [bind_run, advance_closed]

/-! ### Loops -/

/-- A loop is at its end, or one turn of it is followed by the loop. -/
theorem loop_succ (p : Token → Bool) (step : α → Reading α) (count : Nat) (a : α) :
    Unread.loop p step (count + 1) a =
      (do if ← currentIs p then Unread.loop p step count (← step a) else pure a) := rfl

/-- How a loop comes from one value and state to others: round after round while the condition holds
    of the current token. -/
inductive Looped (p : Token → Bool) (step : α → Reading α) : α → State → α → State → Prop
  | stop {a s} (ends : s.lexemes.current.any p = false) : Looped p step a s a s
  | again {a s b r c t} (goesOn : s.lexemes.current.any p = true) (once : step a s = .ok b r)
      (more : Looped p step b r c t) : Looped p step a s c t

/-- A step that drops a token whenever it is taken. -/
def Drops (p : Token → Bool) (step : α → Reading α) : Prop :=
  ∀ a t ts n b s, p t = true → step a (closed (t :: ts) n) = .ok b s →
    ∃ us m, s = closed us m ∧ us.length < (t :: ts).length

/-- By induction on the turns that the loop may still make. They are enough, as each of them drops a
    token. -/
theorem loop_eq_ok {p : Token → Bool} {step : α → Reading α} (drops : Drops p step) :
    ∀ (count : Nat) (ts : List Token) (n : Nat) (a b : α) (s : State), ts.length ≤ count →
      (Unread.loop p step count a (closed ts n) = .ok b s ↔ Looped p step a (closed ts n) b s)
  | 0, ts, n, a, b, s, few => by
    obtain rfl := List.length_eq_zero_iff.1 (Nat.le_zero.1 few)
    rw [Unread.loop, pure_eq_ok]
    constructor
    · rintro ⟨rfl, rfl⟩
      exact .stop rfl
    · rintro (_ | ⟨goesOn, _, _⟩)
      · exact ⟨rfl, rfl⟩
      · exact absurd goesOn (by simp)
  | count + 1, ts, n, a, b, s, few => by
    rw [loop_succ, bind_eq_ok]
    simp only [currentIs_eq_ok]
    constructor
    · rintro ⟨c, r, ⟨hc, rfl⟩, run⟩
      cases c with
      | false =>
        obtain ⟨rfl, rfl⟩ := pure_eq_ok.1 run
        exact .stop hc
      | true =>
        obtain ⟨t, ts, rfl⟩ := List.exists_cons_of_ne_nil (l := ts) (by rintro rfl; simp at hc)
        obtain ⟨a', r, once, later⟩ := bind_eq_ok.1 run
        obtain ⟨us, m, rfl, fewer⟩ := drops a t ts n a' r (by simpa using hc) once
        exact .again hc once ((loop_eq_ok drops count us m a' b s (by omega)).1 later)
    · rintro (ends | ⟨goesOn, once, more⟩)
      · exact ⟨_, _, ⟨ends, rfl⟩, pure_eq_ok.2 ⟨rfl, rfl⟩⟩
      · obtain ⟨t, ts, rfl⟩ := List.exists_cons_of_ne_nil (l := ts) (by rintro rfl; simp at goesOn)
        obtain ⟨us, m, rfl, fewer⟩ := drops a t ts n _ _ (by simpa using goesOn) once
        refine ⟨_, _, ⟨goesOn, rfl⟩, bind_eq_ok.2 ⟨_, _, once, ?_⟩⟩
        exact (loop_eq_ok drops count us m _ b s (by omega)).2 more

/-- A loop whose steps drop tokens ends where its condition fails. -/
theorem foldWhile_eq_ok {p : Token → Bool} {step : α → Reading α} (drops : Drops p step)
    {ts : List Token} {n : Nat} {a b : α} {s : State} :
    foldWhile p step a (closed ts n) = .ok b s ↔ Looped p step a (closed ts n) b s :=
  loop_eq_ok drops _ ts n a b s (Nat.le_refl _)

end ContextualQuery.Reading
