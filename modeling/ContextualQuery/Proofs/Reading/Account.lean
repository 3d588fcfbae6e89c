import ContextualQuery.Proofs.Reading.Cost
import Mathlib.Order.PropInstances

/-! The calls that reading makes.

    An account tells, of the state in which something is read, which calls to drop a token are made
    and how the reading ends. A loop goes on in it for as long as its condition holds, and nothing
    bounds its turns: a loop that never ends has no account at all.

        state at a call             what comes of it
        a token                     `dropped`: the token is gone
        no token left               `idle`
        an unclosed quote in sight  `refused`, and the reading ends

    What is read settles its account (`Settles`) if it has just one, ends in it as in `Reading`, and
    has dropped the tokens that are gone in the order in which they stood, with no idle call. Loops
    do so if each turn takes a token (`Settles.foldWhile`). -/

namespace ContextualQuery

open Reading

/-- What comes of a call to drop the current token. -/
inductive Call where
  | dropped (token : Token)
  | idle
  | refused (fault : Fault)
  deriving DecidableEq

/-- How a reading ends. -/
abbrev Reading.Ending := EStateM.Result Fault State

/-- What comes of a call in a state. -/
def Reading.State.call (s : State) : Call :=
  match advance s with
  | .ok _ _ => s.lexemes.current.elim .idle .dropped
  | .error fault _ => .refused fault

example : State.call { lexemes := { tokens := [] } } = .idle := rfl

/-- The calls that are made from a state on, and what they end with. -/
def Account (α : Type) : Type := State → List Call → Ending α → Prop

namespace Account

variable {α β : Type}

/-- What makes no call. -/
def silent (m : Reading α) : Account α := fun s calls ending => calls = [] ∧ ending = m s

/-- One reading behind another. -/
inductive Bind (x : Account α) (k : α → Account β) : State → List Call → Ending β → Prop
  | step {s calls a t calls' ending} (first : x s calls (.ok a t)) (second : k a t calls' ending) :
      Bind x k s (calls ++ calls') ending
  | refused {s calls fault t} (first : x s calls (.error fault t)) :
      Bind x k s calls (.error fault t)

/-- Turn after turn of a loop while the condition holds of the current token, however many. -/
inductive Turns (p : Token → Bool) (step : α → Account α) :
    α → State → List Call → Ending α → Prop
  | stop {a s} (ends : s.lexemes.current.any p = false) : Turns p step a s [] (.ok a s)
  | again {a s calls b t calls' ending} (goesOn : s.lexemes.current.any p = true)
      (once : step a s calls (.ok b t)) (more : Turns p step b t calls' ending) :
      Turns p step a s (calls ++ calls') ending
  | refused {a s calls fault t} (goesOn : s.lexemes.current.any p = true)
      (once : step a s calls (.error fault t)) : Turns p step a s calls (.error fault t)

instance : Monad Account where
  pure a := silent (pure a)
  bind := Bind

instance : Script.Steps Account where
  current := silent current
  following := silent following
  advance s calls ending := calls = [s.call] ∧ ending = advance s
  refuse fault := silent (refuse fault)
  foldWhile := Turns

instance : Script.Numbers Account where
  newId := silent newId
  size := silent Reading.size

/-- A loop is at its end, or one turn of it is followed by the loop. -/
theorem turns_iff {p : Token → Bool} {step : α → Account α} {a : α} {s : State}
    {calls : List Call} {ending : Ending α} :
    Turns p step a s calls ending ↔
      (if s.lexemes.current.any p then step a >>= Turns p step else pure a : Account α)
        s calls ending := by
  constructor
  · rintro (ends | ⟨goesOn, once, more⟩ | ⟨goesOn, once⟩)
    · rw [ends]
      exact ⟨rfl, rfl⟩
    · rw [if_pos goesOn]
      exact .step once more
    · rw [if_pos goesOn]
      exact .refused once
  · split
    next goesOn =>
      rintro (⟨once, more⟩ | once)
      · exact .again goesOn once more
      · exact .refused goesOn once
    next ends =>
      rintro ⟨rfl, rfl⟩
      exact .stop (Bool.eq_false_iff.2 ends)

end Account

/-! ### Tokens that are taken -/

/-- Whether calls have taken the tokens that are gone, one after the other. Only the last call may
    be refused, in front of a token; then the reading ends with it. -/
inductive Consumes {α : Type} (s : State) : List Call → Ending α → Prop
  | read {ts a t} (split : s.lexemes.tokens = ts ++ t.lexemes.tokens) :
      Consumes s (ts.map .dropped) (.ok a t)
  | refused {ts fault t} (split : s.lexemes.tokens = ts ++ t.lexemes.tokens) :
      Consumes s (ts.map .dropped) (.error fault t)
  | cut {ts fault t} (split : s.lexemes.tokens = ts ++ t.lexemes.tokens)
      (more : t.lexemes.tokens ≠ []) :
      Consumes s (ts.map .dropped ++ [.refused fault]) (.error fault t)

namespace Consumes

variable {α β : Type} {s t : State} {calls calls' : List Call} {a : α} {fault : Fault}

/-- Steps that take no token. -/
theorem nothing (same : s.lexemes = t.lexemes) : Consumes s [] (.ok a t) :=
  @read _ s [] a t (congrArg _ same)

/-- No step puts a token back. -/
theorem left_le (h : Consumes s calls (.ok a t)) : t.left ≤ s.left := by
  cases h with
  | read split =>
    rw [State.left, State.left, split, List.length_append]
    exact Nat.le_add_left _ _

theorem of_error (h : Consumes s calls (.error fault t : Ending α)) :
    Consumes s calls (.error fault t : Ending β) := by
  cases h with
  | refused split => exact .refused split
  | cut split more => exact .cut split more

/-- Calls of one part and calls of the next one. -/
theorem append {ending : Ending β} (h : Consumes s calls (.ok a t))
    (h' : Consumes t calls' ending) : Consumes s (calls ++ calls') ending := by
  cases h with
  | read split =>
    cases h' with
    | read split' =>
      rw [← List.map_append]
      exact .read (by rw [split, split', List.append_assoc])
    | refused split' =>
      rw [← List.map_append]
      exact .refused (by rw [split, split', List.append_assoc])
    | cut split' more =>
      rw [← List.append_assoc, ← List.map_append]
      exact .cut (by rw [split, split', List.append_assoc]) more

end Consumes

/-! ### Accounts that are settled -/

/-- Whether what is read from a state has just one account, ends in it as `m` does, takes tokens in
    order, and leaves a value and a state as asked. -/
def Settles {α : Type} (Q : α → State → Prop) (x : Account α) (m : Reading α) (s : State) :
    Prop :=
  ∃ calls, (∀ made ending, x s made ending ↔ made = calls ∧ ending = m s) ∧
    Consumes s calls (m s) ∧ ∀ a t, m s = .ok a t → Q a t

/-- The same of what takes a token at least. -/
abbrev Spends {α : Type} (x : Account α) (m : Reading α) (s : State) : Prop :=
  Settles (fun _ t => t.left < s.left) x m s

namespace Settles

variable {α β : Type} {Q Q' : α → State → Prop} {P : β → State → Prop} {x y : Account α}
  {m : Reading α} {k : α → Account β} {k' : α → Reading β} {s : State} {a : α} {fault : Fault}

/-- Less may be asked of the end, given that no token has been put back. -/
theorem mono (h : Settles Q x m s) (hQ : ∀ a t, Q a t → t.left ≤ s.left → Q' a t) :
    Settles Q' x m s := by
  obtain ⟨calls, only, takes, post⟩ := h
  exact ⟨calls, only, takes, fun a t run => hQ a t (post a t run) (run ▸ takes).left_le⟩

/-- Two accounts that tell of the same calls. -/
theorem congr (same : ∀ made ending, y s made ending ↔ x s made ending) (h : Settles Q x m s) :
    Settles Q y m s := by
  obtain ⟨calls, only, takes, post⟩ := h
  exact ⟨calls, fun made ending => (same made ending).trans (only made ending), takes, post⟩

/-! #### Steps without a call -/

theorem silent (takes : Consumes s [] (m s)) (post : ∀ a t, m s = .ok a t → Q a t) :
    Settles Q (Account.silent m) m s := ⟨[], fun _ _ => Iff.rfl, takes, post⟩

theorem pure (h : Q a s) : Settles Q (pure a) (pure a) s := by
  refine silent (.nothing rfl) fun b t run => ?_
  obtain ⟨rfl, rfl⟩ := pure_eq_ok.1 run
  exact h

theorem refuse : Settles Q (Script.Steps.refuse fault) (refuse fault) s :=
  silent (@Consumes.refused _ s [] fault s rfl) fun _ _ run => (refuse_eq_ok.1 run).elim

/-- Numbering a node is no call. -/
theorem newId : Settles (fun _ _ => True) Script.Numbers.newId Reading.newId s :=
  silent (.nothing rfl) fun _ _ _ => trivial

theorem size : Settles (fun _ t => t.lexemes = s.lexemes) Script.Numbers.size Reading.size s := by
  refine silent (.nothing rfl) fun n t run => ?_
  obtain ⟨-, rfl⟩ := EStateM.Result.ok.inj run
  rfl

/-- Neither is splitting a name or checking a term. -/
theorem ofExcept {r : Except Fault α} (h : ∀ a, r = .ok a → Q a s) :
    Settles Q (Script.ofExcept r) (Reading.ofExcept r) s := by
  cases r with
  | ok a => exact pure (h a rfl)
  | error fault => exact refuse

/-! #### Steps behind steps -/

/-- The account of two parts is that of the first, followed by that of the second if the first went
    through. It is the only one, as both are. -/
theorem bind (h : Settles Q x m s)
    (hk : ∀ a t, Q a t → t.left ≤ s.left → Settles P (k a) (k' a) t) :
    Settles P (x >>= k) (m >>= k') s := by
  obtain ⟨calls, only, takes, post⟩ := h
  have ends := bind_run m k' s
  cases run : m s with
  | ok a t =>
    rw [run] at only takes ends
    obtain ⟨calls', only', takes', post'⟩ := hk a t (post a t run) takes.left_le
    refine ⟨calls ++ calls', fun made ending => ?_, ends ▸ takes.append takes', ends ▸ post'⟩
    rw [ends]
    constructor
    · rintro (⟨first, second⟩ | first)
      · obtain ⟨rfl, same⟩ := (only _ _).1 first
        obtain ⟨rfl, rfl⟩ := EStateM.Result.ok.inj same
        obtain ⟨rfl, rfl⟩ := (only' _ _).1 second
        exact ⟨rfl, rfl⟩
      · cases ((only _ _).1 first).2
    · rintro ⟨rfl, rfl⟩
      exact .step ((only _ _).2 ⟨rfl, rfl⟩) ((only' _ _).2 ⟨rfl, rfl⟩)
  | error fault t =>
    rw [run] at only takes ends
    refine ⟨calls, fun made ending => ?_, ends ▸ takes.of_error, by simp [ends]⟩
    rw [ends]
    constructor
    · rintro (⟨first, second⟩ | first)
      · cases ((only _ _).1 first).2
      · obtain ⟨rfl, same⟩ := (only _ _).1 first
        obtain ⟨rfl, rfl⟩ := EStateM.Result.error.inj same
        exact ⟨rfl, rfl⟩
    · rintro ⟨rfl, rfl⟩
      exact .refused ((only _ _).2 ⟨rfl, rfl⟩)

theorem refuse_bind {k : α → Account β} {k' : α → Reading β} :
    Settles P (Script.Steps.refuse fault >>= k) (Reading.refuse fault >>= k') s :=
  bind (Q := fun _ _ => False) refuse fun _ _ impossible _ => impossible.elim

/-- Whatever may be refused while the state stays. -/
theorem guard {p : Prop} [Decidable p] {u : PUnit → Account α} {u' : PUnit → Reading α}
    (h : Settles Q x m s) :
    Settles Q (if p then Script.Steps.refuse fault >>= u else x)
      (if p then Reading.refuse fault >>= u' else m) s := by
  split
  · exact refuse_bind
  · exact h

/-- A step that only looks at the state. -/
theorem look (same : m s = .ok a s) (h : Settles P (k a) (k' a) s) :
    Settles P (Account.silent m >>= k) (m >>= k') s := by
  refine bind (silent (Q := fun b t => b = a ∧ t = s) ?_ fun b t run => ?_) ?_
  · rw [same]
    exact .nothing rfl
  · obtain ⟨rfl, rfl⟩ := EStateM.Result.ok.inj (same.symm.trans run)
    exact ⟨rfl, rfl⟩
  · rintro _ _ ⟨rfl, rfl⟩ -
    exact h

theorem current {k : Option Token → Account β} {k' : Option Token → Reading β}
    (h : Settles P (k s.lexemes.current) (k' s.lexemes.current) s) :
    Settles P (Script.Steps.current >>= k) (Reading.current >>= k') s := look rfl h

theorem following {k : Option Token → Account β} {k' : Option Token → Reading β}
    (h : Settles P (k s.lexemes.following) (k' s.lexemes.following) s) :
    Settles P (Script.Steps.following >>= k) (Reading.following >>= k') s := look rfl h

theorem currentIs {p : Token → Bool} {k : Bool → Account β} {k' : Bool → Reading β}
    (h : Settles P (k (s.lexemes.current.any p)) (k' (s.lexemes.current.any p)) s) :
    Settles P (Script.currentIs p >>= k) (Reading.currentIs p >>= k') s := by
  refine bind (Q := fun b t => b = s.lexemes.current.any p ∧ t = s) (current (pure ⟨rfl, rfl⟩)) ?_
  rintro _ _ ⟨rfl, rfl⟩ -
  exact h

/-! #### Calls -/

/-- A call is never idle where a token is left. -/
theorem advance {w : Token} (found : s.lexemes.current = some w) :
    Settles (fun _ t => s.lexemes.tokens = w :: t.lexemes.tokens) Script.Steps.advance
      Reading.advance s := by
  have tokens : s.lexemes.tokens = w :: s.lexemes.tokens.tail := List.eq_cons_of_mem_head? found
  refine ⟨[s.call], fun _ _ => Iff.rfl, ?_, fun _ _ run =>
    tokens.trans (congrArg _ (tokens_advance run).symm)⟩
  cases run : Reading.advance s with
  | ok _ t =>
    have call : s.call = .dropped w := by rw [State.call, run, found]; rfl
    rw [call]
    exact @Consumes.read _ s [w] _ t (by rw [tokens, tokens_advance run]; rfl)
  | error fault t =>
    have call : s.call = .refused fault := by rw [State.call, run]
    rw [call]
    refine @Consumes.cut _ s [] fault t (tokens_of_refused run).symm ?_
    rw [tokens_of_refused run, tokens]
    exact List.cons_ne_nil _ _

/-- A call with a token in sight leaves one token less. -/
theorem advance_lt {w : Token} (found : s.lexemes.current = some w) :
    Spends Script.Steps.advance Reading.advance s :=
  (advance found).mono fun _ _ tokens _ => by
    rw [State.left, State.left, tokens]
    exact Nat.lt_succ_self _

/-! #### Loops -/

/-- A loop whose turns take tokens comes to an end, and the number of tokens bounds its turns. -/
theorem foldWhile {p : Token → Bool} {step : α → Account α} {step' : α → Reading α}
    (h : ∀ a t, t.lexemes.current.any p = true → Spends (step a) (step' a) t) (a : α) :
    Settles (fun _ _ => True) (Script.Steps.foldWhile p step a) (Reading.foldWhile p step' a) s := by
  -- The count is never what ends the loop, as no fewer turns are counted than tokens are left.
  have loop : ∀ count a s, s.left ≤ count →
      Settles (fun _ _ => True) (Account.Turns p step a) (Unread.loop p step' count a) s := by
    intro count
    induction count with
    | zero =>
      intro a s none_left
      have ends : ¬ s.lexemes.current.any p = true := fun goesOn =>
        absurd (left_pos goesOn) (Nat.not_lt.2 none_left)
      refine congr (fun _ _ => Account.turns_iff) ?_
      rw [if_neg ends]
      exact pure trivial
    | succ count ih =>
      intro a s few
      refine congr (fun _ _ => Account.turns_iff) ?_
      change Settles _ _ (if s.lexemes.current.any p then step' a >>= Unread.loop p step' count
        else Pure.pure a) s
      split
      next goesOn => exact bind (h a s goesOn) fun b t fewer _ => ih b t (by omega)
      next => exact pure trivial
  exact loop _ a s (Nat.le_refl _)

/-- Items that take a token each. -/
theorem many {p : Token → Bool} {item : Account α} {item' : Reading α}
    (h : ∀ t, t.lexemes.current.any p = true → Spends item item' t) :
    Settles (fun _ _ => True) (Script.many p item) (Reading.many p item') s :=
  bind (foldWhile (fun _ t goesOn => bind (h t goesOn) fun _ _ fewer _ => pure fewer) [])
    fun _ _ _ _ => pure trivial

end Settles

end ContextualQuery
