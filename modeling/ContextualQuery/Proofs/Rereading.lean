import ContextualQuery.Proofs.Depth
import ContextualQuery.Proofs.RoundTrip

/-! What a query is written as, read under the rules of the query itself.

    Each triple is written between parentheses, and a node below another stands between parentheses
    of its own if it has declarations or sort keys:

        a or >x="u" b     is written     (cql.serverchoice = a or (>x="u" cql.serverchoice = b))

    So a tree of `h` levels is written in `h` scopes where nothing is attached below its root, but in
    up to `2 * h` of them otherwise (`Node.scopes`), and the limit of depth that the query was read
    under is too low for some queries (`parse_text_same_limit`). Whatever the limit and the
    punctuation, the query is read again where its parts are and the scopes are within the limit
    (`parse_text_withDepth`). -/

namespace ContextualQuery

open Lexemes Reading

variable {rules : Rules} {s : String} {q : Query} {info : NodeInfo} {body : Phrase}

/-! ### Scopes of what is written -/

/-- How many scopes a node that stands below another is written in for what is attached to it. -/
def NodeInfo.scopes (info : NodeInfo) : Nat := if info.isScoped then 1 else 0

/-- How many scopes stand one inside the other in what is written for a node below another. -/
def Node.scopesBelow : Node → Nat
  | .clause info _ => info.scopes
  | .triple info left _ right => info.scopes + (1 + max left.scopesBelow right.scopesBelow)

/-- How many scopes stand one inside the other in what is written for a tree, that of the whole
    included. -/
def Node.scopes : Node → Nat
  | .clause _ _ => 1
  | .triple _ left _ right => 2 + max left.scopesBelow right.scopesBelow

theorem NodeInfo.depth_phrase : Grammar.depth (info.phrase body) = 1 + Grammar.depth body := by
  rw [phrase, Grammar.depth, Nat.add_comm]
  split <;> rfl

theorem NodeInfo.depth_phraseBelow :
    Grammar.depth (info.phraseBelow body) = info.scopes + Grammar.depth body := by
  rw [phraseBelow, scopes]
  split
  · exact depth_phrase
  · rw [Nat.zero_add]

theorem Phrase.depth_joined (left : Phrase) (b : Boolean) (right : Phrase) :
    Grammar.depth (.joined left b right) = 1 + max (Grammar.depth left) (Grammar.depth right) :=
  Nat.add_comm _ _

theorem Node.depth_phraseBelow (t : Node) : Grammar.depth t.phraseBelow = t.scopesBelow := by
  induction t with
  | clause info c => exact NodeInfo.depth_phraseBelow
  | triple info left b right ih ih' =>
    rw [phraseBelow, NodeInfo.depth_phraseBelow, Phrase.depth_joined, ih, ih', scopesBelow]

theorem Node.depth_phrase (t : Node) : Grammar.depth t.phrase = t.scopes := by
  cases t with
  | clause info c => exact NodeInfo.depth_phrase
  | triple info left b right =>
    rw [phrase, NodeInfo.depth_phrase, Phrase.depth_joined, depth_phraseBelow, depth_phraseBelow,
      scopes]
    omega

theorem NodeInfo.scopes_le_one (info : NodeInfo) : info.scopes ≤ 1 := by
  rw [scopes]
  split <;> omega

theorem Node.scopesBelow_bounds (t : Node) :
    t.levels ≤ t.scopesBelow + 1 ∧ t.scopesBelow + 1 ≤ 2 * t.levels := by
  induction t with
  | clause info c =>
    have := info.scopes_le_one
    simp only [levels, scopesBelow]
    omega
  | triple info left b right ih ih' =>
    have := info.scopes_le_one
    simp only [levels, scopesBelow]
    omega

theorem Node.levels_le_scopes (t : Node) : t.levels ≤ t.scopes := by
  cases t with
  | clause info c => exact Nat.le_refl 1
  | triple info left b right =>
    have hl := left.scopesBelow_bounds
    have hr := right.scopesBelow_bounds
    simp only [levels, scopes]
    omega

theorem Node.scopes_le (t : Node) : t.scopes ≤ 2 * t.levels := by
  cases t with
  | clause info c => exact Nat.le_succ 1
  | triple info left b right =>
    have hl := left.scopesBelow_bounds
    have hr := right.scopesBelow_bounds
    simp only [levels, scopes]
    omega

/-- Whether nothing is attached to any node of a tree. -/
def Node.Bare (t : Node) : Prop := ∀ node ∈ t.postorder, node.info.isScoped = false

theorem Node.Bare.scopesBelow_eq {t : Node} (bare : t.Bare) : t.scopesBelow + 1 = t.levels := by
  induction t with
  | clause info c =>
    have free : info.isScoped = false := bare (.clause info c) (by simp [postorder])
    simp [scopesBelow, levels, NodeInfo.scopes, free]
  | triple info left b right ih ih' =>
    have free : info.isScoped = false := bare (.triple info left b right) (by simp [postorder])
    have hl := ih fun node mem => bare node (by simp [postorder, mem])
    have hr := ih' fun node mem => bare node (by simp [postorder, mem])
    simp only [scopesBelow, levels, NodeInfo.scopes, free]
    simp only [Bool.false_eq_true, if_false]
    omega

/-- Where nothing is attached below the root, each level is a scope. -/
theorem Node.scopes_eq {t : Node} (bare : ∀ child ∈ t.children, child.Bare) :
    t.scopes = t.levels := by
  cases t with
  | clause info c => rfl
  | triple info left b right =>
    have hl := (bare left (by simp [children])).scopesBelow_eq
    have hr := (bare right (by simp [children])).scopesBelow_eq
    simp only [scopes, levels]
    omega

/-! ### Other limits -/

/-- Under any limit that leaves room for its scopes, what a query is written as is read as the same
    query; any other limit refuses it as nested too deeply. -/
theorem parse_text_withDepth [Harmless rules.wordChars] (quotes : rules.rejectQuotedName = false)
    (read : parse rules s = .ok q) (worded : q.root.WordedLast rules.wordChars) (m : Nat) :
    parse (rules.withDepth m) q.text =
      if q.root.scopes ≤ m then .ok { q with source := q.text }
      else .error (nestedTooDeep q.text) := by
  obtain ⟨⟨us, lexed, spelled⟩, fits, built, size, defaults⟩ :=
    spells_text quotes read worded (Nat.le_refl _)
  have observed : observe (rules.withDepth (2 * rules.maxDepth)) q.text =
      .ok ({ q with source := q.text }, q.root.phrase.notes [] 0) := by
    refine observe_eq_ok.2 ⟨us, q.root.phrase, ofText_eq.2 lexed, spelled, fits, ?_, rfl⟩
    rw [built, size, ← defaults]
  have within : (deepest (q.root.phrase.notes [] 0) ≤ m ∧ q.root.levels ≤ m) ↔
      q.root.scopes ≤ m := by
    rw [deepest_notes, Node.depth_phrase, List.length_nil, Nat.zero_add]
    exact ⟨And.left, fun room => ⟨room, q.root.levels_le_scopes.trans room⟩⟩
  have threshold := parse_withDepth_of_observe observed m
  simp only [within] at threshold
  exact threshold

/-- Under the limit it was read under, a query is read again from what it is written as if its scopes,
    which are at most twice its levels, are within the limit, and is refused as nested too deeply
    otherwise. It is always read again where nothing is attached below its root. -/
theorem parse_text_same_limit [Harmless rules.wordChars] (quotes : rules.rejectQuotedName = false)
    (read : parse rules s = .ok q) (worded : q.root.WordedLast rules.wordChars) :
    parse rules q.text = (if q.root.scopes ≤ rules.maxDepth then .ok { q with source := q.text }
      else .error (nestedTooDeep q.text)) ∧
    q.root.levels ≤ q.root.scopes ∧ q.root.scopes ≤ 2 * q.root.levels ∧
    ((∀ child ∈ q.root.children, child.Bare) →
      parse rules q.text = .ok { q with source := q.text }) := by
  have threshold : parse rules q.text = if q.root.scopes ≤ rules.maxDepth
      then .ok { q with source := q.text } else .error (nestedTooDeep q.text) :=
    parse_text_withDepth quotes read worded rules.maxDepth
  refine ⟨threshold, q.root.levels_le_scopes, q.root.scopes_le, fun bare => ?_⟩
  obtain ⟨notes, observed⟩ := parse_eq_ok_iff_observe.1 read
  rw [threshold, Node.scopes_eq bare, if_pos (limits_of_observe observed).2]

/-- Under a limit of three scopes, a declaration in front of an operand is read again. -/
theorem parse_text_same_limit_declaration : ∃ q,
    parse { maxDepth := 3 } "a or >x=\"u\" b" = .ok q ∧ q.root.scopes = 3 ∧
      parse { maxDepth := 3 } q.text = .ok { q with source := q.text } := by
  have checked : ((parse { maxDepth := 3 } "a or >x=\"u\" b").toOption.any fun q =>
      decide (q.root.WordedLast defaultWordChars) && q.root.scopes == 3) = true := by
    decide +kernel
  obtain ⟨q, read, parts⟩ := exists_eq_ok_of_any checked
  simp only [Bool.and_eq_true, decide_eq_true_eq, beq_iff_eq] at parts
  obtain ⟨worded, three⟩ := parts
  obtain ⟨again, -⟩ := parse_text_same_limit rfl read worded
  rw [three] at again
  exact ⟨q, read, three, again⟩

/-- Under a limit of two scopes it is refused, though the query itself was read. -/
theorem not_parse_text_same_limit : ¬∀ (m : Nat) (s : String) (q : Query),
    parse { maxDepth := m } s = .ok q → ∀ d, parse { maxDepth := m } q.text = .error d →
      d.details ≠ "Query nesting too deep" := by
  intro kept
  have checked : ((parse { maxDepth := 2 } "a or >x=\"u\" b").toOption.any fun q =>
      decide (q.root.WordedLast defaultWordChars) && q.root.scopes == 3) = true := by
    decide +kernel
  obtain ⟨q, read, parts⟩ := exists_eq_ok_of_any checked
  simp only [Bool.and_eq_true, decide_eq_true_eq, beq_iff_eq] at parts
  obtain ⟨worded, three⟩ := parts
  have refused := parse_text_withDepth rfl read worded 2
  rw [three] at refused
  exact kept 2 _ q read _ refused rfl

/-! ### Other punctuation -/

/-- Whatever harmless punctuation words hold, what a query is written as is read as the same tree
    where all that is written in one piece is read in one piece: names without quotes must be words
    of that punctuation, too. -/
theorem parse_text_same_wordChars {punctuation : String} [Harmless punctuation]
    (read : parse { wordChars := punctuation } s = .ok q) (worded : q.root.WordedLast punctuation)
    {m : Nat} (room : q.root.scopes ≤ m) :
    ∃ r, parse { wordChars := punctuation, maxDepth := m } q.text = .ok r ∧ r.root = q.root ∧
      r.size = q.size ∧ r.json = q.json := by
  have again := parse_text_withDepth rfl read worded m
  rw [if_pos room] at again
  exact ⟨_, again, rfl, rfl, rfl⟩

/-- A name with an at sign, which is written between quotes. -/
theorem parse_text_same_wordChars_at : ∃ q r,
    parse { wordChars := "@." } "a@b.c any d and e" = .ok q ∧
      parse { wordChars := "@.", maxDepth := 2 } q.text = .ok r ∧ r.json = q.json := by
  have checked : ((parse { wordChars := "@." } "a@b.c any d and e").toOption.any fun q =>
      decide (q.root.WordedLast "@.") && q.root.scopes == 2) = true := by
    decide +kernel
  obtain ⟨q, read, parts⟩ := exists_eq_ok_of_any checked
  simp only [Bool.and_eq_true, decide_eq_true_eq, beq_iff_eq] at parts
  obtain ⟨worded, two⟩ := parts
  have : Harmless "@." := harmless_of_all (by decide)
  obtain ⟨r, again, -, -, same⟩ := parse_text_same_wordChars read worded (Nat.le_of_eq two)
  exact ⟨q, r, read, again, same⟩

/-- Without punctuation in words, the index of a bare term is written as several tokens, which are
    refused under any limit. -/
theorem not_parse_text_same_wordChars : ∃ q, parse { wordChars := "" } "cat" = .ok q ∧
    (∀ c ∈ q.clauses, c.relation.kind = .comparison .eq) ∧ q.root.modifiers = [] ∧
    ∀ m r, parse { wordChars := "", maxDepth := m } q.text ≠ .ok r := by
  have checked : ((parse { wordChars := "" } "cat").toOption.any fun q =>
      decide (∀ c ∈ q.clauses, c.relation.kind = .comparison .eq) &&
        q.root.modifiers.isEmpty && q.text == "cql.serverchoice = cat") = true := by
    decide +kernel
  obtain ⟨q, read, parts⟩ := exists_eq_ok_of_any checked
  simp only [Bool.and_eq_true, decide_eq_true_eq, beq_iff_eq, List.isEmpty_iff] at parts
  obtain ⟨⟨plain, unmodified⟩, text⟩ := parts
  refine ⟨q, read, plain, unmodified, fun m r again => ?_⟩
  rw [text] at again
  have unreached : attempt (Rules.withDepth { wordChars := "" } 256) "cql.serverchoice = cat" ≠
      .error .tooDeep := attempt_ne_tooDeep (by decide)
  have refused :
      (parse (Rules.withDepth { wordChars := "" } 256) "cql.serverchoice = cat").toOption = none := by
    decide +kernel
  have found : attempt (Rules.withDepth { wordChars := "" } m) "cql.serverchoice = cat" = .ok r :=
    parse_eq_ok_iff_attempt.1 again
  rcases attempt_withDepth (m := m) unreached with same | deep
  · rw [same, ← parse_eq_ok_iff_attempt] at found
    rw [found] at refused
    cases refused
  · rw [deep] at found
    cases found

end ContextualQuery
