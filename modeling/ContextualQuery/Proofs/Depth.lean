import ContextualQuery.Proofs.Acceptance
import ContextualQuery.Proofs.Layout
import ContextualQuery.Proofs.Reading.Cost
import ContextualQuery.Proofs.Reading.Tightening
import ContextualQuery.Proofs.Reading.Usual

/-! The limit of depth is a threshold.

    There are limits that are never reached (`attempt_ne_tooDeep`), and reading under one of them tells
    which limits a text keeps: those of at least the groups that were open at once and of at least the
    levels of the tree (`parse_withDepth`). Nothing else depends on the limit. -/

namespace ContextualQuery

open Reading

variable {rules : Rules} {source : String}

/-! ### Limits that are kept -/

/-- How many groups of declarations are open at a clause, at most. Whatever group is opened is open at
    a clause, so no more of them are open at any time. -/
def deepest (notes : List Note) : Nat := (notes.map (·.groups.length)).foldr max 0

theorem deepest_append (notes notes' : List Note) :
    deepest (notes ++ notes') = max (deepest notes) (deepest notes') := by
  induction notes with
  | nil => simp [deepest]
  | cons note notes ih =>
    change max note.groups.length (deepest (notes ++ notes')) = max (max _ (deepest notes)) _
    rw [ih, Nat.max_assoc]

theorem deepest_notes (p : Phrase) (groups : List Declarations) (n : Nat) :
    deepest (p.notes groups n) = groups.length + Grammar.depth p := by
  induction p generalizing groups n with
  | clause c => simp [Phrase.notes, deepest, Grammar.depth]
  | join left b right ih ih' =>
    rw [Phrase.notes, deepest_append, ih, ih', Grammar.depth, Nat.add_max_add_left]
  | sort body keys ih => exact ih groups n
  | scope group body ih =>
    rw [Phrase.notes, ih, List.length_cons, Grammar.depth]
    omega

theorem Phrase.Fits.depth_le {p : Phrase} : ∀ {limit : Nat} {groups : List Declarations},
    p.Fits rules limit groups → Grammar.depth p ≤ limit := by
  induction p with
  | clause c => exact fun _ => Nat.zero_le _
  | join left b right ih ih' => exact fun fits => max_le (ih fits.1) (ih' fits.2.1)
  | sort body keys ih => exact ih
  | scope group body ih =>
    intro limit groups fits
    cases limit with
    | zero => exact fits.elim
    | succ limit => exact Nat.succ_le_succ (ih fits.2)

/-- Within other limits a phrase fits as well, if they leave room for its groups and levels. -/
theorem Phrase.Fits.within {p : Phrase} {m : Nat} : ∀ {limit limit' : Nat}
    {groups : List Declarations}, p.Fits rules limit groups → Grammar.depth p ≤ limit' →
      p.height ≤ m → p.Fits (rules.withDepth m) limit' groups := by
  induction p with
  | clause c => exact fun _ _ _ => trivial
  | join left b right ih ih' =>
    rintro limit limit' groups ⟨fits, fits', -⟩ shallow low
    simp only [Grammar.depth, Phrase.height] at shallow low
    exact ⟨ih fits (by omega) (by omega), ih' fits' (by omega) (by omega), low⟩
  | sort body keys ih => exact ih
  | scope group body ih =>
    intro limit limit' groups fits shallow low
    simp only [Grammar.depth, Phrase.height] at shallow low
    obtain ⟨limit', rfl⟩ : ∃ l, limit' = l + 1 := ⟨limit' - 1, by omega⟩
    cases limit with
    | zero => exact fits.elim
    | succ limit => exact ⟨fits.1, ih fits.2 (by omega) low⟩

theorem levels_build (p : Phrase) (n : Nat) : (p.build n).levels = p.height := by
  rw [← (built_build p n).height_eq, height_build]

/-- A query keeps within the limit of the rules. -/
theorem limits_of_observe {q : Query} {notes : List Note}
    (observed : observe rules source = .ok (q, notes)) :
    deepest notes ≤ rules.maxDepth ∧ q.root.levels ≤ rules.maxDepth := by
  obtain ⟨ts, p, lexed, spelled, fits, rfl, rfl⟩ := observe_eq_ok.1 observed
  rw [deepest_notes, levels_build, List.length_nil, Nat.zero_add]
  exact ⟨fits.depth_le, spelled.height_le fits⟩

/-- A query is read as the same under another limit that it keeps within. -/
theorem observe_withDepth {q : Query} {notes : List Note} {m : Nat}
    (observed : observe rules source = .ok (q, notes)) (shallow : deepest notes ≤ m)
    (low : q.root.levels ≤ m) : observe (rules.withDepth m) source = .ok (q, notes) := by
  obtain ⟨ts, p, lexed, spelled, fits, rfl, rfl⟩ := observe_eq_ok.1 observed
  rw [deepest_notes, List.length_nil, Nat.zero_add] at shallow
  rw [levels_build] at low
  exact observe_eq_ok.2
    ⟨ts, p, lexed, spelled.closing none (.refl none), fits.within shallow low, rfl, rfl⟩

/-! ### The threshold -/

/-- The report of a text whose subqueries or levels exceed the limit. -/
def nestedTooDeep (source : String) : Diagnostic :=
  { code := .querySyntax, details := "Query nesting too deep", query := source }

theorem tightens_withDepth {m m' : Nat} (le : m ≤ m') :
    Rules.Tightens (· = .tooDeep) (rules.withDepth m) (rules.withDepth m') :=
  ⟨.inl rfl, .inl rfl, .inl rfl, rfl, rfl, .inr ⟨le, rfl⟩⟩

/-- Where one limit is not reached, any other is reached or changes nothing. -/
theorem attempt_withDepth {m m' : Nat}
    (unreached : attempt (rules.withDepth m') source ≠ .error .tooDeep) :
    attempt (rules.withDepth m) source = attempt (rules.withDepth m') source ∨
      attempt (rules.withDepth m) source = .error .tooDeep := by
  rcases Nat.le_total m m' with le | le
  · obtain same | ⟨f, refused, rfl⟩ := (tightens_withDepth le).attempt_eq source
    · exact .inl same
    · exact .inr refused
  · obtain same | ⟨f, refused, rfl⟩ := (tightens_withDepth le).attempt_eq source
    · exact .inl same.symm
    · exact absurd refused unreached

theorem keeps_iff_parse {q : Query} {notes : List Note} {m : Nat}
    (observed : observe rules source = .ok (q, notes)) :
    parse (rules.withDepth m) source = .ok q ↔ deepest notes ≤ m ∧ q.root.levels ≤ m := by
  constructor
  · intro read
    obtain ⟨notes', observed'⟩ := parse_eq_ok_iff_observe.1 read
    obtain ⟨shallow, low⟩ := limits_of_observe observed
    obtain ⟨shallow', low'⟩ := limits_of_observe observed'
    -- Both readings are the one under the larger limit.
    have both := observe_withDepth observed (shallow.trans (Nat.le_max_left _ m))
      (low.trans (Nat.le_max_left _ m))
    have both' := observe_withDepth observed' (shallow'.trans (Nat.le_max_right rules.maxDepth _))
      (low'.trans (Nat.le_max_right rules.maxDepth _))
    obtain ⟨-, rfl⟩ := Prod.mk.inj (Except.ok.inj (both.symm.trans both'))
    exact ⟨shallow', low'⟩
  · rintro ⟨shallow, low⟩
    exact parse_eq_ok_iff_observe.2 ⟨notes, observe_withDepth observed shallow low⟩

/-- A text that is a query under one limit is the same query under those that it keeps within, and
    refused by all others. -/
theorem parse_withDepth_of_observe {q : Query} {notes : List Note} {M : Nat}
    (observed : observe (rules.withDepth M) source = .ok (q, notes)) (m : Nat) :
    parse (rules.withDepth m) source =
      if deepest notes ≤ m ∧ q.root.levels ≤ m then .ok q else .error (nestedTooDeep source) := by
  have keeps := keeps_iff_parse (m := m) observed
  have read : attempt (rules.withDepth M) source = .ok q :=
    parse_eq_ok_iff_attempt.1 (parse_eq_ok_iff_observe.2 ⟨notes, observed⟩)
  split
  next within => exact keeps.2 within
  next beyond =>
    have unreached : attempt (rules.withDepth M) source ≠ .error .tooDeep := by simp [read]
    rcases attempt_withDepth (m := m) unreached with same | deep
    · rw [read, ← parse_eq_ok_iff_attempt] at same
      exact absurd (keeps.1 same) beyond
    · rw [parse_eq_attempt, deep]
      rfl

/-- What a limit of depth does to the reading of a text. There are limits that are never reached.
    Where the text is a query under one of these, it is read as the same query by those limits that
    leave room for the groups that are open at once and for the levels of the tree, and refused by
    all others as nested too deeply; where it is none, every limit refuses it for the same reason or
    for this one. So no tree that is read exceeds the limit, and larger limits read the same. -/
theorem parse_withDepth (rules : Rules) (source : String) :
    (∀ M, source.length < M → attempt (rules.withDepth M) source ≠ .error .tooDeep) ∧
      (∀ M, attempt (rules.withDepth M) source ≠ .error .tooDeep →
        (∀ q notes, observe (rules.withDepth M) source = .ok (q, notes) → ∀ m,
          parse (rules.withDepth m) source =
            if deepest notes ≤ m ∧ q.root.levels ≤ m then .ok q else .error (nestedTooDeep source)) ∧
        ∀ d, parse (rules.withDepth M) source = .error d → ∀ m,
          parse (rules.withDepth m) source = .error d ∨
            parse (rules.withDepth m) source = .error (nestedTooDeep source)) ∧
      ∀ m q, parse (rules.withDepth m) source = .ok q → q.root.levels ≤ m ∧
        ∀ m', m ≤ m' → parse (rules.withDepth m') source = .ok q := by
  refine ⟨fun M beyond => attempt_ne_tooDeep beyond, fun M unreached => ⟨?_, ?_⟩, ?_⟩
  · exact fun q notes observed m => parse_withDepth_of_observe observed m
  · intro d refused m
    rcases attempt_withDepth (m := m) unreached with same | deep
    · rw [parse_eq_attempt, same, ← refused, ← parse_eq_attempt]
      exact .inl rfl
    · rw [parse_eq_attempt, deep]
      exact .inr rfl
  · intro m q read
    obtain ⟨notes, observed⟩ := parse_eq_ok_iff_observe.1 read
    obtain ⟨shallow, low⟩ := limits_of_observe observed
    refine ⟨low, fun m' more => ?_⟩
    have again : observe ((rules.withDepth m).withDepth m') source = .ok (q, notes) :=
      observe_withDepth observed (shallow.trans more) (low.trans more)
    exact parse_eq_ok_iff_observe.2 ⟨notes, again⟩

/-- Doubled parentheses take a level of depth each, though the tree has one level only. -/
theorem parse_doubled_parentheses_withDepth :
    ∃ q, q.root.levels = 1 ∧ parse (Rules.withDepth {} 3) "((a))" = .ok q ∧
      parse (Rules.withDepth {} 2) "((a))" = .error (nestedTooDeep "((a))") := by
  obtain ⟨unreached, threshold, -⟩ := parse_withDepth {} "((a))"
  have checked : ((observe (Rules.withDepth {} 6) "((a))").toOption.any
      fun found => deepest found.2 == 3 && found.1.root.levels == 1) = true := by
    decide +kernel
  obtain ⟨⟨q, notes⟩, observed, sizes⟩ := exists_eq_ok_of_any checked
  obtain ⟨three, one⟩ := Bool.and_eq_true_iff.1 sizes
  have limits := (threshold 6 (unreached 6 (by decide))).1 q notes observed
  rw [beq_iff_eq.1 three, beq_iff_eq.1 one] at limits
  exact ⟨q, beq_iff_eq.1 one, limits 3, limits 2⟩

end ContextualQuery
