import ContextualQuery.Proofs.Reading.Conduct
import ContextualQuery.Proofs.Reading.Tree

/-! What reading costs.

    A tree of one level takes a token at least, a boolean that joins two trees takes one, and so do an
    opening parenthesis and a group of declarations. So reading pays a token for each level of a tree
    (`Pays`) and for each group that it opens inside another one, and a limit beyond the length of the
    text is never reached (`attempt_ne_tooDeep`). -/

namespace ContextualQuery

namespace Reading

variable {rules : Rules} {limit budget : Nat}

/-! ### Tokens that are left -/

/-- The number of tokens that are still to be read. -/
def State.left (s : State) : Nat := s.lexemes.tokens.length

/-- Whatever a condition holds of is left. -/
theorem left_pos {s : State} {p : Token → Bool} (h : s.lexemes.current.any p = true) :
    0 < s.left := by
  unfold State.left
  cases tokens : s.lexemes.tokens with
  | nil => simp [Lexemes.current, tokens] at h
  | cons t ts => simp

/-- Dropping drops the first token. -/
theorem tokens_advance {s t : State} (h : advance s = .ok () t) :
    t.lexemes.tokens = s.lexemes.tokens.tail := by
  obtain ⟨⟨ts, quote⟩, n⟩ := s
  match ts, quote, h with
  | _ :: _ :: _ :: _, _, h | [], none, h | [_], none, h | [_, _], none, h =>
    obtain ⟨-, rfl⟩ := pure_eq_ok.1 h
    rfl
  | [], some _, h | [_], some _, h | [_, _], some _, h =>
    change EStateM.Result.error _ _ = _ at h
    simp at h

/-- A call that is refused drops nothing. -/
theorem tokens_of_refused {s t : State} {f : Fault} (h : advance s = .error f t) :
    t.lexemes.tokens = s.lexemes.tokens := by
  obtain ⟨⟨ts, quote⟩, n⟩ := s
  match ts, quote, h with
  | [], some _, h | [_], some _, h | [_, _], some _, h =>
    obtain ⟨-, rfl⟩ := EStateM.Result.error.inj h
    rfl
  | _ :: _ :: _ :: _, _, h | [], none, h | [_], none, h | [_, _], none, h =>
    change EStateM.Result.ok _ _ = _ at h
    simp at h

theorem left_advance {s t : State} (h : advance s = .ok () t) : t.left = s.left - 1 := by
  rw [State.left, tokens_advance h, List.length_tail, State.left]

/-- Reading a part takes tokens away, and the limit of depth is no matter of parts. -/
theorem shrinks (rules : Rules) : Conduct rules (fun s t => t.left ≤ s.left) (· ≠ .tooDeep) where
  refl _ := Nat.le_refl _
  trans first second := Nat.le_trans second first
  dropped h := by
    rw [left_advance h]
    exact Nat.sub_le _ _
  numbered _ := Nat.le_refl _
  refused refuses := by
    rintro rfl
    exact refuses

theorem ends_advance (s : State) :
    Ends (fun _ t => t.left = s.left - 1) (· ≠ .tooDeep) advance s := by
  unfold Ends
  cases run : advance s with
  | ok _ t => exact left_advance run
  | error f t =>
    obtain ⟨text, rfl⟩ := unterminated_of_advance run
    simp

/-- A term costs one token. -/
theorem ends_term (s : State) :
    Ends (fun _ t => t.left < s.left) (· ≠ .tooDeep) (term rules) s := by
  refine .current ?_
  cases found : s.lexemes.current with
  | none => exact .bind (.refuse (by simp)) fun _ _ h => h
  | some w =>
    have some_left : 0 < s.left := left_pos (p := fun _ => true) (by rw [found]; rfl)
    refine .bind (.ofExcept (fun _ _ => rfl) fun f refused => ?_) fun x t (same : s = t) => ?_
    · rintro rfl
      have refuses : rules.Refuses .tooDeep := refuses_of_termOf refused
      exact refuses
    · subst same
      exact .bind (ends_advance s) fun _ t down => .pure (by omega)

/-- So does a boolean, at least. -/
theorem ends_boolean (s : State) :
    Ends (fun _ t => t.left < s.left) (· ≠ .tooDeep) boolean s := by
  refine .current ?_
  split
  next w found =>
    have some_left : 0 < s.left := left_pos (p := fun _ => true) (by rw [found]; rfl)
    split
    · exact .bind (ends_advance s) fun _ t down =>
        .bind ((shrinks {}).modifiers t) fun ms r fewer => .pure (by omega)
    · exact .refuse (by simp)
  next => exact .refuse (by simp)

/-- A group of declarations takes a token unless it is empty. -/
theorem ends_declarations (s : State) :
    Ends (fun group t => t.left ≤ s.left ∧ (group.isEmpty = false → t.left < s.left))
      (· ≠ .tooDeep) (declarations rules) s := by
  refine .foldWhile (fun group t ⟨kept, _⟩ goesOn => ?_) ⟨Nat.le_refl _, by rintro ⟨⟩⟩
  have some_left := left_pos goesOn
  refine .bind (ends_advance t) fun _ t₁ down => ?_
  refine .bind ((shrinks rules).prefixName t₁) fun name t₂ le₂ => ?_
  refine .bind ((shrinks rules).identifier t₂) fun i t₃ le₃ => .guard (fun _ => by simp) (.pure ?_)
  exact ⟨by omega, fun _ => by omega⟩

theorem ends_termClause {s : State} (enough : s.left ≤ budget) (clauseOf : Term → Clause) :
    Ends (fun node t => node.height + t.left ≤ budget) (· ≠ .tooDeep)
      (do
        let x ← term rules
        newClause (clauseOf x)) s := by
  refine .bind (ends_term s) fun x t down => ?_
  change 1 + t.left ≤ budget
  omega

/-! ### Tokens for levels -/

/-- Whether a reading of a tree pays a token for each of its levels, as long as less than `limit`
    tokens are left. -/
def Pays (limit : Nat) (m : Reading Node) : Prop :=
  ∀ s, s.left < limit → Ends (fun node t => node.height + t.left ≤ s.left) (· ≠ .tooDeep) m s

/-- A clause has one level and costs one token. -/
theorem pays_clause : Pays limit (clause rules) := by
  intro s _
  refine .following ?_
  split
  · exact .current (.guard (fun _ => by simp) (ends_termClause (Nat.le_refl _) .ofTerm))
  · split
    · exact .current (.refuse (by simp))
    · refine .bind ((shrinks rules).name s) fun name s₁ le₁ => ?_
      refine .bind ((shrinks rules).advance s₁) fun _ s₂ le₂ => ?_
      refine .bind ((shrinks rules).relation s₂) fun relation s₃ le₃ => ?_
      exact .current (.guard (fun _ => by simp) (ends_termClause (by omega) _))

/-- A triple has one level more than the higher of its operands, and its boolean has been paid for.
    -/
theorem ends_join {operand : Reading Node} (pays : Pays limit operand)
    (low : budget ≤ rules.maxDepth) {left : Node} {s : State} (few : s.left < limit)
    (paid : left.height + s.left ≤ budget) :
    Ends (fun node t => node.height + t.left ≤ budget) (· ≠ .tooDeep) (join rules operand left) s := by
  refine .bind (ends_boolean s) fun b s₁ down => .bind (pays s₁ (by omega)) fun right s₂ paid' => ?_
  have joined : Ends (fun node t => node.height = 1 + max left.height right.height ∧
      t.left = s₂.left) (· ≠ .tooDeep) (newTriple left b right) s₂ := ⟨rfl, rfl⟩
  refine .bind joined fun node s₃ ⟨height, same⟩ => .guard (fun exceeds => ?_) (.pure ?_)
  · omega
  · omega

/-- The tokens taken so far pay for the levels, turn by turn. -/
theorem pays_chain {operand : Reading Node} (pays : Pays limit operand)
    (low : limit ≤ rules.maxDepth + 1) : Pays limit (chain rules operand) := by
  intro s few
  have joins {node : Node} {t : State} (paid : node.height + t.left ≤ s.left) :
      Ends (fun node t => node.height + t.left ≤ s.left) (· ≠ .tooDeep) (join rules operand node) t :=
    ends_join pays (by omega) (by omega) paid
  refine .bind (pays s few) fun first s₁ paid => ?_
  refine .bind (.foldWhile (fun _ _ paid _ => joins paid) paid) fun whole s₂ paid => ?_
  refine .currentIs ?_
  split
  · refine .bind ((shrinks rules).advance s₂) fun _ s₃ le₃ => ?_
    refine .bind ((shrinks rules).sortKeys s₃) fun keys s₄ le₄ => .pure ?_
    rw [height_sortBy]
    omega
  · exact .pure (by omega)

/-- What opens a group of its own has fewer tokens than what it is part of. -/
theorem pays_subquery {enter : PrefixMap → Reading Node} (pays : ∀ group, Pays limit (enter group)) :
    Pays (limit + 1) (subquery rules enter) := by
  intro s few
  refine .currentIs ?_
  split
  next opened =>
    have some_left := left_pos opened
    refine .bind (ends_advance s) fun _ s₁ down => ?_
    refine .bind (ends_declarations s₁) fun group s₂ ⟨le₂, _⟩ => ?_
    refine .bind (pays group s₂ (by omega)) fun node s₃ paid => .currentIs ?_
    split
    · exact .bind ((shrinks rules).advance s₃) fun _ s₄ le₄ => .pure (by omega)
    · exact .current (.bind (.refuse (by simp)) fun _ _ h => h)
  next =>
    refine .bind (ends_declarations s) fun group s₁ ⟨le₁, fewer⟩ => ?_
    split
    · exact (pays_clause s₁ (Nat.lt_succ_self _)).mono (fun _ _ paid => by omega) fun _ h => h
    next some_name =>
      have fewer := fewer (by simpa using some_name)
      exact (pays group s₁ (by omega)).mono (fun _ _ paid => by omega) fun _ h => h

/-- By induction on the scopes that may still be opened: `>` or `(` has been paid for each. -/
theorem pays_inScope (depth : Nat) (low : depth ≤ rules.maxDepth + 1) :
    ∀ (frames : List PrefixMap) (group : PrefixMap), Pays depth (inScope rules depth frames group) := by
  induction depth with
  | zero => exact fun _ _ s few => absurd few (Nat.not_lt_zero _)
  | succ depth ih =>
    intro frames group s few
    -- What opens a scope inside has taken a token before, so a scope less is enough for it.
    have operand : Pays (depth + 1) (subquery rules (inScope rules depth (group :: frames))) :=
      pays_subquery (ih (by omega) (group :: frames))
    rw [inScope_succ]
    cases redeclared? rules frames group with
    | some name => exact .refuse (by simp)
    | none =>
      exact (pays_chain operand low s few).bind fun node t paid => .pure (by rwa [height_declare])

/-- With fewer tokens than the limit allows levels, `tooDeep` is never found. -/
theorem ends_tree {s : State} (few : s.left < rules.maxDepth) :
    Ends (fun _ _ => True) (· ≠ .tooDeep) (tree rules) s := by
  refine .bind (ends_declarations s) fun group t taken => ?_
  have few' : t.left < rules.maxDepth := Nat.lt_of_le_of_lt taken.1 few
  refine .bind (pays_inScope _ (Nat.le_succ _) [] group t (by omega)) fun root r _ => .current ?_
  split
  · exact .bind (.refuse (by simp)) fun _ _ h => h
  · exact trivial

theorem ends_query (source : String) {s : State} (few : s.left < rules.maxDepth) :
    Ends (fun _ _ => True) (· ≠ .tooDeep) (query rules source) s :=
  (ends_tree few).bind fun _ _ _ => trivial

end Reading

/-- A text has no more tokens than characters. -/
theorem Lexemes.length_upTo_le (punctuation : String) (count : Nat) (cs : List Char) :
    (upTo punctuation count cs).tokens.length ≤ count := by
  induction count generalizing cs with
  | zero => exact Nat.le_refl _
  | succ count ih =>
    unfold upTo
    split
    · exact Nat.zero_le _
    · exact Nat.zero_le _
    · exact Nat.succ_le_succ (ih _)

variable {rules : Rules} {source : String}

/-- A limit beyond the length of a text is never reached. -/
theorem attempt_ne_tooDeep (beyond : source.length < rules.maxDepth) :
    attempt rules source ≠ .error .tooDeep := by
  refine fun h => fault_of_attempt (E := (· ≠ .tooDeep)) (by simp) (fun s same => ?_) h rfl
  have few : s.left ≤ source.length := by
    rw [Reading.State.left, same, ← String.length_toList]
    exact Lexemes.length_upTo_le _ _ _
  exact Reading.ends_query source (Nat.lt_of_le_of_lt few beyond)

end ContextualQuery
