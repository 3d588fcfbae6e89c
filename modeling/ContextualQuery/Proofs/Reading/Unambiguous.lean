import ContextualQuery.Proofs.Reading.Text

/-! A text spells one phrase at most.

    Each part is read by a function, so the tokens in front of a given rest spell it in one way
    (`Reads.unique`). Which rule of a phrase comes next is decided by the token in sight, so the same
    goes for phrases (`Spells.unique`). -/

namespace ContextualQuery

open Reading

variable {α : Type} {rules : Rules} {u : List Token} {next : Option Token}

/-- Whether tokens that mean `a` in front of `next` are the only ones at the start of a text that
    mean anything, and mean nothing else. -/
def Spelling.Settled (S : Spelling α) (u : List Token) (next : Option Token) (a : α) : Prop :=
  ∀ rest u' rest' a', next = rest.head? → u ++ rest = u' ++ rest' → S u' rest'.head? a' →
    u = u' ∧ a = a'

/-- A spelling that leaves no choice. -/
def Spelling.Unique (S : Spelling α) : Prop := ∀ u next a, S u next a → S.Settled u next a

theorem Reading.Reads.unique {m : Reading α} {S : Spelling α} (reads : Reads m S) : S.Unique := by
  rintro u _ a spelled rest u' rest' a' rfl same spelled'
  have run := (reads (u ++ rest) 0 a _).2 ⟨u, rest, rfl, spelled, rfl⟩
  have run' := (reads (u ++ rest) 0 a' _).2 ⟨u', rest', same, spelled', rfl⟩
  obtain ⟨rfl, left⟩ := EStateM.Result.ok.inj (run.symm.trans run')
  obtain rfl : rest = rest' := congrArg (·.lexemes.tokens) left
  exact ⟨List.append_cancel_right same, rfl⟩

theorem Reading.ReadsAt.unique {p : Token → Bool} {m : Reading α} {S : Spelling α}
    (reads : ReadsAt p m S) (starts : StartsWith p S) : S.Unique := by
  rintro u _ a spelled rest u' rest' a' rfl same spelled'
  obtain ⟨t, v, rfl, ht⟩ := starts _ _ _ spelled
  have run := (reads t (v ++ rest) 0 a _ ht).2 ⟨t :: v, rest, rfl, spelled, rfl⟩
  have run' := (reads t (v ++ rest) 0 a' _ ht).2 ⟨u', rest', same, spelled', rfl⟩
  obtain ⟨rfl, left⟩ := EStateM.Result.ok.inj (run.symm.trans run')
  obtain rfl : rest = rest' := congrArg (·.lexemes.tokens) left
  exact ⟨List.append_cancel_right same, rfl⟩

/-- Where the part in front is settled, all that follows it is the same. -/
theorem Spelling.Settled.front {S : Spelling α} {v rest u' v' rest' : List Token} {a a' : α}
    (settled : S.Settled u (ahead v rest.head?) a) (same : u ++ v ++ rest = u' ++ v' ++ rest')
    (spelled' : S u' (ahead v' rest'.head?) a') : u = u' ∧ a = a' ∧ v ++ rest = v' ++ rest' := by
  rw [List.append_assoc, List.append_assoc] at same
  rw [← head?_append_eq_ahead] at spelled'
  obtain ⟨rfl, rfl⟩ := settled _ _ _ _ (head?_append_eq_ahead v rest).symm same spelled'
  exact ⟨rfl, rfl, List.append_cancel_left same⟩

theorem unique_group : Spelling.Unique (GroupSpelling rules) := reads_observedDeclarations.unique

/-- The declarations of a group by themselves, with no look at the names in front of them. -/
theorem unique_written :
    Spelling.Unique (Sequence (· == .comparison .gt) (DeclarationSpelling rules)) :=
  (reads_many reads_binding startsWith_binding).unique

theorem unique_declaration : Spelling.Unique (DeclarationSpelling rules) :=
  reads_binding.unique startsWith_binding

theorem unique_boolean : Spelling.Unique BooleanSpelling := reads_boolean.unique

theorem unique_keys :
    Spelling.Unique fun u next keys => keys ≠ [] ∧ KeysSpelling rules u next keys :=
  reads_sortKeys.unique

theorem unique_clause : Spelling.Unique (ClauseSpelling rules) := by
  rintro u _ c spelled rest u' rest' c' rfl same spelled'
  have run := clause_eq_ok (n := 0).2 ⟨u, rest, c, rfl, spelled, rfl, rfl⟩
  have run' := clause_eq_ok (n := 0).2 ⟨u', rest', c', same, spelled', rfl, rfl⟩
  obtain ⟨node, left⟩ := EStateM.Result.ok.inj (run.symm.trans run')
  obtain rfl : rest = rest' := congrArg (·.lexemes.tokens) left
  exact ⟨List.append_cancel_right same, (Node.clause.inj node).2⟩

/-! ### What the token in sight decides -/

/-- A clause has no slash at its start, and none behind its first token. -/
theorem ClauseSpelling.ne_slash {t : Token} {v : List Token} {c : Clause}
    (h : ClauseSpelling rules (t :: v) next c) : t ≠ .slash ∧ ahead v next ≠ some .slash := by
  cases h with
  | full named _ related _ =>
    constructor
    · rintro rfl
      nomatch named
    · cases related <;> simp
  | alone ends searched =>
    constructor <;> rintro rfl
    · simp [termOf] at searched
    · exact absurd ends (by decide)

/-! ### Phrases -/

/-- What neither a parenthesis nor a declaration stands in front of starts with a clause. -/
theorem Spells.starts_clause {part : Part} {p : Phrase} (h : Spells rules part u next p)
    (goesOn : ∀ left, part ≠ .links left) {t : Token} {w : List Token} (head : u = t :: w)
    (paren : t ≠ .openParen) (gt : t ≠ .comparison .gt) :
    ∃ v rest c, w = v ++ rest ∧ ClauseSpelling rules (t :: v) (ahead rest next) c := by
  induction h generalizing w with
  | query declared _ ih =>
    obtain ⟨written, -⟩ := declared
    cases written with
    | nil => exact ih (by simp) head
    | cons first _ =>
      obtain ⟨t', _, rfl, gt'⟩ := startsWith_binding _ _ _ first
      obtain ⟨rfl, -⟩ := List.cons.inj head
      exact absurd (beq_iff_eq.1 gt') gt
  | chain first _ _ ih _ =>
    obtain ⟨u, rfl, rfl⟩ := first.operand_cons head.symm
    obtain ⟨v, rest, c, rfl, spelled⟩ := ih (by simp) rfl
    exact ⟨v, rest ++ _, c, List.append_assoc .., by rwa [ahead_append]⟩
  | sorted first _ _ _ _ ih _ =>
    rw [List.append_assoc] at head
    obtain ⟨u, rfl, rfl⟩ := first.operand_cons head.symm
    obtain ⟨v, rest, c, rfl, spelled⟩ := ih (by simp) rfl
    exact ⟨v, rest ++ _, c, List.append_assoc .., by simpa using spelled⟩
  | done | link => exact absurd rfl (goesOn _)
  | paren => exact absurd (List.cons.inj head).1.symm paren
  | enter declared some_name _ _ =>
    obtain ⟨_, rfl⟩ := declared.head some_name
    exact absurd (List.cons.inj head).1.symm gt
  | clause spelled =>
    subst head
    exact ⟨w, [], _, (List.append_nil w).symm, spelled⟩

/-- Whether a chain is sorted is decided by the token behind its last link. -/
theorem unique_sort (p : Phrase) : Spelling.Unique (SortSpelling rules p) := by
  rintro u _ q spelled rest u' rest' q' rfl same spelled'
  cases spelled with
  | unsorted unsorted =>
    cases spelled' with
    | unsorted => exact ⟨rfl, rfl⟩
    | sorted sortby =>
      rw [List.nil_append] at same
      simp [same, sortby] at unsorted
  | sorted sortby some_key sorting =>
    cases spelled' with
    | unsorted unsorted =>
      rw [List.nil_append] at same
      simp [← same, sortby] at unsorted
    | sorted _ some_key' sorting' =>
      obtain ⟨rfl, keys⟩ := List.cons.inj same
      obtain ⟨rfl, rfl⟩ :=
        unique_keys _ _ _ ⟨some_key, sorting⟩ _ _ _ _ rfl keys ⟨some_key', sorting'⟩
      exact ⟨rfl, rfl⟩

/-- A chain is settled where its first operand and its links are. -/
theorem Spelling.Settled.chain {u v w : List Token} {next : Option Token} {left p q : Phrase}
    (first : Settled (Spells rules .operand) u (ahead (v ++ w) next) left)
    (links : Settled (Spells rules (.links left)) v (ahead w next) p)
    (sorted : SortSpelling rules p w next q) :
    Settled (Spells rules .chain) (u ++ (v ++ w)) next q := by
  rintro rest _ rest' _ rfl same spelled'
  obtain ⟨u', v', w', left', p', rfl, first', links', sorted'⟩ := Spells.chain_iff.1 spelled'
  obtain ⟨rfl, rfl, same⟩ := first.front same first'
  obtain ⟨rfl, rfl, same⟩ := links.front same links'
  obtain ⟨rfl, rfl⟩ := unique_sort _ _ _ _ sorted _ _ _ _ rfl same sorted'
  exact ⟨rfl, rfl⟩

/-- Tokens at the start of a text spell one phrase at most. -/
theorem Spells.unique (part : Part) : Spelling.Unique (Spells rules part) := by
  intro u next p h
  -- On the first of two spellings; the token in sight leaves the second one the same rule.
  induction h with
  | query declared _ ih =>
    rintro rest _ rest' _ rfl same ⟨declared', chain'⟩
    obtain ⟨rfl, rfl, same⟩ := (unique_group _ _ _ declared).front same declared'
    obtain ⟨rfl, rfl⟩ := ih _ _ _ _ rfl same chain'
    exact ⟨rfl, rfl⟩
  | @chain u v next left p _ _ unsorted ih ih' =>
    have settled := Spelling.Settled.chain (w := []) (by simpa using ih) ih' (.unsorted unsorted)
    rwa [List.append_nil] at settled
  | @sorted u v t w next left p keys _ _ sortby some_key sorting ih ih' =>
    rw [List.append_assoc]
    exact Spelling.Settled.chain (by simpa using ih) ih' (.sorted sortby some_key sorting)
  | done ends =>
    rintro rest _ rest' _ rfl same spelled'
    cases spelled' with
    | done => exact ⟨rfl, rfl⟩
    | @link u v w _ _ _ _ _ joined _ _ =>
      have goesOn := joined.goesOn (v ++ w ++ rest')
      rw [← List.append_assoc, ← same] at goesOn
      exact absurd (ends.symm.trans goesOn) (by simp)
  | @link u v w _ _ _ _ _ joined _ _ ih ih' =>
    rintro rest _ rest' _ rfl same spelled'
    cases spelled' with
    | done ends =>
      have goesOn := joined.goesOn (v ++ w ++ rest)
      rw [← List.append_assoc, same] at goesOn
      exact absurd (ends.symm.trans goesOn) (by simp)
    | link joined' operand' links' =>
      obtain ⟨rfl, rfl, same⟩ := (unique_boolean _ _ _ joined).front same joined'
      obtain ⟨rfl, rfl, same⟩ := ih.front same operand'
      obtain ⟨rfl, rfl⟩ := ih' _ _ _ _ rfl same links'
      exact ⟨rfl, rfl⟩
  | paren _ ih =>
    rintro rest _ rest' _ rfl same spelled'
    obtain ⟨v', rfl, inside⟩ := spelled'.operand_cons same
    obtain ⟨u', rfl, query'⟩ := spelled'.parenthesised
    rw [List.append_assoc] at inside
    obtain ⟨rfl, rfl⟩ := ih _ _ _ _ rfl ((List.append_assoc _ _ _).symm.trans inside) query'
    exact ⟨rfl, rfl⟩
  | enter declared some_name _ ih =>
    rintro rest _ rest' _ rfl same spelled'
    obtain ⟨v, rfl⟩ := declared.head some_name
    obtain ⟨v', rfl, -⟩ := spelled'.operand_cons same
    obtain ⟨u', w', group', body', split, rfl, declared', chain'⟩ := spelled'.scoped
    rw [split] at same ⊢
    obtain ⟨rfl, rfl, same⟩ := (unique_group _ _ _ declared).front same declared'
    obtain ⟨rfl, rfl⟩ := ih _ _ _ _ rfl same chain'
    exact ⟨rfl, rfl⟩
  | clause spelled =>
    rintro rest _ rest' _ rfl same spelled'
    obtain ⟨t, v, rfl, paren, gt, -⟩ := spelled.head
    obtain ⟨v', rfl, -⟩ := spelled'.operand_cons same
    obtain ⟨c', rfl, clause'⟩ := spelled'.plain paren gt
    obtain ⟨whole, rfl⟩ := unique_clause _ _ _ spelled _ _ _ _ rfl same clause'
    exact ⟨whole, rfl⟩

/-- The tokens of a whole text spell one query at most. -/
theorem Spells.eq {ts : List Token} {p p' : Phrase} (h : Spells rules .query ts none p)
    (h' : Spells rules .query ts none p') : p = p' :=
  (Spells.unique .query ts none p h [] ts [] p' rfl rfl h').2

end ContextualQuery
