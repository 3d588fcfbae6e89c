import ContextualQuery.Proofs.Reading.Spelling

/-! Queries as they are written, before nodes are numbered and declarations attached to them.

        query     :=  declaration* chain
        chain     :=  operand (boolean operand)* (sortby key+)?
        operand   :=  ( query )  |  declaration+ chain  |  clause

    A phrase keeps every group of declarations where it stands, also where several groups end up at
    one node of the tree. `Spells` says which tokens spell a phrase; each rule asks at most for the
    next token, so a text spells one phrase at most. -/

namespace ContextualQuery

open Reading

/-- A query as it is written. -/
inductive Phrase where
  | clause (clause : Clause)
  | join (left : Phrase) (boolean : Boolean) (right : Phrase)
  | sort (body : Phrase) (keys : List Index)
  | scope (group : Declarations) (body : Phrase)

/-- What is noted when a clause is read: its number, and the groups of declarations that are open
    then, innermost first. -/
structure Note where
  clause : Nat
  groups : List Declarations

namespace Phrase

/-- The number of clauses and triples. -/
def size : Phrase → Nat
  | clause _ => 1
  | join left _ right => left.size + right.size + 1
  | sort body _ => body.size
  | scope _ body => body.size

/-- The levels of the tree. -/
def height : Phrase → Nat
  | clause _ => 1
  | join left _ right => 1 + max left.height right.height
  | sort body _ => body.height
  | scope _ body => body.height

/-- The tree of a phrase, its nodes numbered from `n` on, each behind those below it. -/
def build : Phrase → Nat → Node
  | clause c, n => .clause { id := n, height := 1 } c
  | join left boolean right, n =>
    .triple { id := n + left.size + right.size, height := 1 + max left.height right.height }
      (left.build n) boolean (right.build (n + left.size))
  | sort body keys, n => (body.build n).sortBy keys
  | scope group body, n => (body.build n).declare (.ofList group)

/-- The notes on the clauses of a phrase inside the groups `groups`, its nodes numbered from `n`
    on. -/
def notes (groups : List Declarations) : Phrase → Nat → List Note
  | clause _, n => [⟨n, groups⟩]
  | join left _ right, n => left.notes groups n ++ right.notes groups (n + left.size)
  | sort body _, n => body.notes groups n
  | scope group body, n => body.notes (group :: groups) n

end Phrase

/-- Whether no name of a group is declared in one of the groups around it. -/
def Unclaimed (groups : List Declarations) (group : Declarations) : Prop :=
  ∀ name ∈ (PrefixMap.ofList group).names, ∀ outer ∈ groups, name ∉ (PrefixMap.ofList outer).names

/-- Whether a phrase inside the groups `groups` keeps within the rules when `depth` more groups may
    be opened. -/
def Phrase.Fits (rules : Rules) : Phrase → Nat → List Declarations → Prop
  | .clause _, _, _ => True
  | .join left _ right, depth, groups =>
    left.Fits rules depth groups ∧ right.Fits rules depth groups ∧
      1 + max left.height right.height ≤ rules.maxDepth
  | .sort body _, depth, groups => body.Fits rules depth groups
  | .scope _ _, 0, _ => False
  | .scope group body, depth + 1, groups =>
    (rules.rejectDuplicatePrefix = true → Unclaimed groups group) ∧
      body.Fits rules depth (group :: groups)

/-- A group without declarations costs a level of depth and nothing else. -/
theorem Phrase.Fits.undeclared {rules : Rules} {body : Phrase} {depth : Nat}
    {groups : List Declarations} (fits : body.Fits rules depth ([] :: groups)) :
    Phrase.Fits rules (.scope [] body) (depth + 1) groups :=
  ⟨fun _ _ hname => (by cases hname), fits⟩

/-- The kinds of phrases. A chain goes on, behind what it starts with, as links. -/
inductive Part where | query | chain | links (left : Phrase) | operand

/-- Which tokens spell a phrase, given the token behind them. -/
inductive Spells (rules : Rules) : Part → Spelling Phrase
  | query {u v next group body} (declared : GroupSpelling rules u (ahead v next) group)
      (chain : Spells rules .chain v next body) :
      Spells rules .query (u ++ v) next (.scope group body)
  | chain {u v next left p} (first : Spells rules .operand u (ahead v next) left)
      (links : Spells rules (.links left) v next p)
      (unsorted : next.any (Token.isWord sortWord) = false) :
      Spells rules .chain (u ++ v) next p
  | sorted {u v t w next left p keys} (first : Spells rules .operand u (ahead v (some t)) left)
      (links : Spells rules (.links left) v (some t) p) (sortby : t.isWord sortWord = true)
      (some_key : keys ≠ []) (sorting : KeysSpelling rules w next keys) :
      Spells rules .chain (u ++ v ++ t :: w) next (.sort p keys)
  | done {left next} (ends : next.any Token.isBoolean = false) :
      Spells rules (.links left) [] next left
  | link {u v w next left boolean right p} (joined : BooleanSpelling u (ahead (v ++ w) next) boolean)
      (operand : Spells rules .operand v (ahead w next) right)
      (links : Spells rules (.links (.join left boolean right)) w next p) :
      Spells rules (.links left) (u ++ (v ++ w)) next p
  | paren {u next p} (query : Spells rules .query u (some .closeParen) p) :
      Spells rules .operand (.openParen :: (u ++ [.closeParen])) next p
  | enter {u v next group body} (declared : GroupSpelling rules u (ahead v next) group)
      (some_name : group ≠ []) (chain : Spells rules .chain v next body) :
      Spells rules .operand (u ++ v) next (.scope group body)
  | clause {u next c} (clause : ClauseSpelling rules u next c) :
      Spells rules .operand u next (.clause c)

/-! ### Ends of chains -/

/-- What stands behind the last link of a chain `p`: its sort keys, or nothing where no keyword for
    them follows. -/
inductive SortSpelling (rules : Rules) (p : Phrase) : Spelling Phrase
  | unsorted {next} (unsorted : next.any (Token.isWord sortWord) = false) :
      SortSpelling rules p [] next p
  | sorted {t w next keys} (sortby : t.isWord sortWord = true) (some_key : keys ≠ [])
      (sorting : KeysSpelling rules w next keys) : SortSpelling rules p (t :: w) next (.sort p keys)

/-- A chain is an operand, its links and what they are sorted by. -/
theorem Spells.chain_iff {rules : Rules} {ts : List Token} {next : Option Token} {p : Phrase} :
    Spells rules .chain ts next p ↔ ∃ u v w left q, ts = u ++ (v ++ w) ∧
      Spells rules .operand u (ahead (v ++ w) next) left ∧
      Spells rules (.links left) v (ahead w next) q ∧ SortSpelling rules q w next p := by
  constructor
  · intro h
    cases h with
    | @chain u v _ _ _ first links unsorted =>
      exact ⟨u, v, [], _, _, by rw [List.append_nil], by simpa using first, links, .unsorted unsorted⟩
    | @sorted u v t w _ _ _ _ first links sortby some_key sorting =>
      exact ⟨u, v, t :: w, _, _, List.append_assoc .., by simpa using first, links,
        .sorted sortby some_key sorting⟩
  · rintro ⟨u, v, w, left, q, rfl, first, links, unsorted | ⟨sortby, some_key, sorting⟩⟩
    · rw [List.append_nil] at first ⊢
      exact .chain first links unsorted
    · rw [← List.append_assoc]
      exact .sorted (by simpa using first) links sortby some_key sorting

/-! ### Starts of operands -/

theorem Spells.operand_head {rules : Rules} {u : List Token} {next : Option Token} {p : Phrase}
    (h : Spells rules .operand u next p) : ∃ t v, u = t :: v ∧ t ≠ .slash := by
  cases h with
  | paren _ => exact ⟨_, _, rfl, by simp⟩
  | enter declared some_name _ =>
    obtain ⟨v, rfl⟩ := declared.head some_name
    exact ⟨_, _, rfl, by simp⟩
  | clause spelled =>
    obtain ⟨t, v, rfl, -, -, slash⟩ := spelled.head
    exact ⟨t, v, rfl, slash⟩

/-- A text that starts with an operand starts with the first token of the operand. -/
theorem Spells.operand_cons {rules : Rules} {u rest ts : List Token} {t : Token}
    {next : Option Token} {p : Phrase} (h : Spells rules .operand u next p)
    (same : t :: ts = u ++ rest) : ∃ v, u = t :: v ∧ ts = v ++ rest := by
  obtain ⟨t', v, rfl, -⟩ := h.operand_head
  obtain ⟨rfl, rfl⟩ := List.cons.inj same
  exact ⟨v, rfl, rfl⟩

/-- An operand behind a parenthesis is a query in parentheses. -/
theorem Spells.parenthesised {rules : Rules} {w : List Token} {next : Option Token} {p : Phrase}
    (h : Spells rules .operand (.openParen :: w) next p) :
    ∃ u, w = u ++ [.closeParen] ∧ Spells rules .query u (some .closeParen) p := by
  generalize start : Token.openParen :: w = ts at h
  cases h with
  | paren query => exact ⟨_, (List.cons.inj start).2, query⟩
  | enter declared some_name _ =>
    obtain ⟨v, rfl⟩ := declared.head some_name
    simp at start
  | clause spelled =>
    obtain ⟨t, v, rfl, paren, -⟩ := spelled.head
    exact absurd (List.cons.inj start).1.symm paren

/-- An operand that starts with a declaration is a chain in a scope of its own. -/
theorem Spells.scoped {rules : Rules} {w : List Token} {next : Option Token} {p : Phrase}
    (h : Spells rules .operand (.comparison .gt :: w) next p) :
    ∃ u v group body, .comparison .gt :: w = u ++ v ∧ p = .scope group body ∧
      GroupSpelling rules u (ahead v next) group ∧ Spells rules .chain v next body := by
  generalize start : Token.comparison .gt :: w = ts at h
  cases h with
  | paren => simp at start
  | enter declared _ chain => exact ⟨_, _, _, _, rfl, rfl, declared, chain⟩
  | clause spelled =>
    obtain ⟨t, v, rfl, -, gt, -⟩ := spelled.head
    exact absurd (List.cons.inj start).1.symm gt

/-- An operand that starts with anything else is a clause. -/
theorem Spells.plain {rules : Rules} {t : Token} {w : List Token} {next : Option Token} {p : Phrase}
    (h : Spells rules .operand (t :: w) next p) (paren : t ≠ .openParen)
    (gt : t ≠ .comparison .gt) : ∃ c, p = .clause c ∧ ClauseSpelling rules (t :: w) next c := by
  generalize start : t :: w = ts at h
  cases h with
  | paren => exact absurd (List.cons.inj start).1 paren
  | enter declared some_name _ =>
    obtain ⟨v, rfl⟩ := declared.head some_name
    exact absurd (List.cons.inj start).1 gt
  | clause spelled => exact ⟨_, rfl, spelled⟩

/-! ### What goes from parts to phrases -/

/-- A property that goes from the parts of a phrase to the phrase, where its tokens are as asked. -/
structure Hereditary (rules : Rules) (T : Token → Prop) (P : Phrase → Prop) : Prop where
  clause {u next c} (tokens : ∀ t ∈ u, T t) (spelled : ClauseSpelling rules u next c) : P (.clause c)
  join {u next left boolean right} (tokens : ∀ t ∈ u, T t) (joined : BooleanSpelling u next boolean)
    (first : P left) (second : P right) : P (.join left boolean right)
  sort {u next body keys} (tokens : ∀ t ∈ u, T t) (sorting : KeysSpelling rules u next keys)
    (below : P body) : P (.sort body keys)
  scope {u next group body} (tokens : ∀ t ∈ u, T t) (declared : GroupSpelling rules u next group)
    (below : P body) : P (.scope group body)

/-- What goes from parts to phrases holds of all phrases, behind what it holds of. -/
theorem Hereditary.holds {rules : Rules} {T : Token → Prop} {P : Phrase → Prop}
    (c : Hereditary rules T P) {part : Part} {u : List Token} {next : Option Token} {p : Phrase}
    (h : Spells rules part u next p) (tokens : ∀ t ∈ u, T t) :
    (∀ left, part = .links left → P left) → P p := by
  induction h with
  | query declared _ ih | enter declared _ _ ih =>
    rw [List.forall_mem_append] at tokens
    exact fun _ => c.scope tokens.1 declared (ih tokens.2 (by simp))
  | chain _ _ _ ih ih' =>
    rw [List.forall_mem_append] at tokens
    exact fun _ => ih' tokens.2 fun left h => by cases h; exact ih tokens.1 (by simp)
  | sorted _ _ _ _ sorting ih ih' =>
    rw [List.forall_mem_append, List.forall_mem_append, List.forall_mem_cons] at tokens
    obtain ⟨⟨first, links⟩, -, keys⟩ := tokens
    have below := ih' links fun left h => by cases h; exact ih first (by simp)
    exact fun _ => c.sort keys sorting below
  | done => exact fun h => h _ rfl
  | link joined _ _ ih ih' =>
    rw [List.forall_mem_append, List.forall_mem_append] at tokens
    obtain ⟨boolean, operand, links⟩ := tokens
    intro h
    refine ih' links fun left h' => ?_
    cases h'
    exact c.join boolean joined (h _ rfl) (ih operand (by simp))
  | paren _ ih => exact fun _ => ih (fun t ht => tokens t (by simp [ht])) (by simp)
  | clause spelled => exact fun _ => c.clause tokens spelled

end ContextualQuery
