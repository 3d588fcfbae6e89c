import ContextualQuery.Proofs.Grammar
import ContextualQuery.Proofs.Reading.Closing

/-! What can be derived is read.

    A derivation may end a chain early and leave the rest of it to a chain around it. Reading does
    not: behind declarations it goes on as long as it can. So the induction over derivations carries
    along what else is there to be taken (`Tail`), and a subquery takes some of it (`Read`). -/

namespace ContextualQuery.Grammar

open Reading Unicode

variable {rules : Rules}

/-! ### Parts without recursion -/

theorem any_beq_eq_false {next : Option Token} {t : Token} (h : next ≠ some t) :
    next.any (· == t) = false := by
  cases next with
  | none => rfl
  | some t' => simpa using h

theorem exists_modifiers {u : List Token} {next : Option Token} (h : Modifiers .wellFormed u next)
    (ends : next ≠ some .slash) : ∃ ms, ModifiersSpelling u next ms := by
  induction h with
  | nil => exact ⟨[], .nil (any_beq_eq_false ends)⟩
  | plain formed alone _ ih =>
    obtain ⟨n, split⟩ := exists_splitName_iff.2 formed
    obtain ⟨ms, rest⟩ := ih ends
    exact ⟨_, .cons (.plain split alone) rest⟩
  | valued formed text _ ih =>
    obtain ⟨n, split⟩ := exists_splitName_iff.2 formed
    obtain ⟨ms, rest⟩ := ih ends
    exact ⟨_, .cons (.valued split text) rest⟩

theorem exists_name (quotes : rules.rejectQuotedName = false) {t : Token}
    (h : IsName .wellFormed t) : ∃ n, NameSpelling rules t n := by
  cases h with
  | word formed =>
    obtain ⟨n, split⟩ := exists_splitName_iff.2 formed
    exact ⟨n, .word split⟩
  | quoted formed =>
    obtain ⟨n, split⟩ := exists_splitName_iff.2 formed
    exact ⟨n, .quoted quotes split⟩

theorem exists_term (tolerant : rules.rejectEmptyTerm = false) {w : Token}
    (h : IsTerm .wellFormed w) : ∃ m, termOf rules (some w) = .ok m := by
  obtain ⟨formed⟩ | ⟨formed⟩ | ⟨formed⟩ := h <;>
    obtain ⟨m, found⟩ := exists_checkTerm_iff.2 formed <;>
    exact ⟨m, (termOf_tolerant tolerant _).trans found⟩

theorem IsTerm.ne_slash {V : Vocabulary} {w : Token} (h : IsTerm V w) : w ≠ .slash := by
  cases h <;> simp

theorem exists_clause (tolerant : rules.rejectEmptyTerm = false)
    (quotes : rules.rejectQuotedName = false) {u : List Token} {next : Option Token}
    (h : Leaf .wellFormed u next) : ∃ c, ClauseSpelling rules u next c := by
  cases h with
  | @full t r u w next named goesOn shut related refined searched =>
    obtain ⟨n, named⟩ := exists_name quotes named
    obtain ⟨m, found⟩ := exists_term tolerant searched
    obtain ⟨ms, refined⟩ := exists_modifiers refined (by simpa using searched.ne_slash)
    have goesOn : ∀ x ∈ (r :: u).head?, endsTerm (some x) = false := by simpa using goesOn
    cases related with
    | comparison => exact ⟨_, .full named goesOn (.comparison refined) found⟩
    | word formed =>
      obtain ⟨n, split⟩ := exists_splitName_iff.2 formed
      exact ⟨_, .full named goesOn (.word split refined) found⟩
  | alone ends searched =>
    obtain ⟨m, found⟩ := exists_term tolerant searched
    exact ⟨_, .alone ends found⟩

theorem Keys.head {V : Vocabulary} {u : List Token} {next : Option Token} (h : Keys V u next) :
    ∃ t v, u = t :: v ∧ t.isText = true := by
  obtain ⟨⟨-⟩ | ⟨-⟩, -, -⟩ | ⟨⟨-⟩ | ⟨-⟩, -, -⟩ := h <;> exact ⟨_, _, rfl, rfl⟩

theorem Keys.ends {V : Vocabulary} {u : List Token} {next : Option Token} (h : Keys V u next) :
    next.any Token.isText = false := by
  induction h with
  | one _ _ ends => exact ends
  | more _ _ _ ih => exact ih

theorem exists_keys (quotes : rules.rejectQuotedName = false) {u : List Token}
    {next : Option Token} (h : Keys .wellFormed u next) (ends : next ≠ some .slash) :
    ∃ keys, keys ≠ [] ∧ KeysSpelling rules u next keys := by
  induction h with
  | @one t u next named refined no_text =>
    obtain ⟨n, named⟩ := exists_name quotes named
    obtain ⟨ms, refined⟩ := exists_modifiers refined ends
    have last : KeysSpelling rules ((t :: u) ++ []) next [_] := .cons (.key named refined) (.nil no_text)
    rw [List.append_nil] at last
    exact ⟨_, by simp, last⟩
  | @more t u v next named refined rest ih =>
    obtain ⟨n, named⟩ := exists_name quotes named
    obtain ⟨keys, -, later⟩ := ih ends
    obtain ⟨t', v', rfl, text⟩ := rest.head
    obtain ⟨ms, refined⟩ := exists_modifiers refined (by rintro ⟨⟩; simp [Token.isText] at text)
    exact ⟨_, by simp, .cons (.key named refined) later⟩

theorem exists_path {u : List Token} {next : Option Token} (h : Path u next) :
    ∃ segments, Sequence (· == .slash) SegmentSpelling u next segments := by
  induction h with
  | nil ends => exact ⟨[], .nil (any_beq_eq_false ends)⟩
  | slash ends _ ih =>
    obtain ⟨segments, rest⟩ := ih
    exact ⟨_, .cons (.slash ends) rest⟩
  | word _ ih =>
    obtain ⟨segments, rest⟩ := ih
    exact ⟨_, .cons .word rest⟩

theorem exists_identifier (quotes : rules.rejectQuotedName = false) {u : List Token}
    {next : Option Token} (h : Identifier u next) : ∃ i, IdentifierSpelling rules u next i := by
  cases h with
  | quoted => exact ⟨_, .quoted quotes⟩
  | path path =>
    obtain ⟨segments, spelled⟩ := exists_path path
    exact ⟨_, .path spelled⟩

/-- Declarations as they are written. -/
abbrev Written (rules : Rules) : Spelling ContextualQuery.Declarations :=
  Sequence (· == .comparison .gt) (DeclarationSpelling rules)

/-- Declarations may stand in front of declarations. -/
theorem Group.written_append (quotes : rules.rejectQuotedName = false) {u : List Token}
    {after : Option Token} (h : Group u after) {v : List Token} {next : Option Token}
    {ds : Declarations} (same : ahead v next = after) (written : Written rules v next ds) :
    ∃ ds', Written rules (u ++ v) next ds' ∧ (u ≠ [] → ds' ≠ []) := by
  induction h with
  | nil => exact ⟨ds, written, fun h => absurd rfl h⟩
  | @cons u w after first _ ih =>
    obtain ⟨ds', later, -⟩ := ih same
    rw [← same, ← ahead_append] at first
    rw [List.append_assoc]
    cases first with
    | named bound =>
      obtain ⟨i, bound⟩ := exists_identifier quotes bound
      exact ⟨_, .cons (.named bound) later, by simp⟩
    | unnamed bound nameless =>
      obtain ⟨i, bound⟩ := exists_identifier quotes bound
      exact ⟨_, .cons (.unnamed bound nameless) later, by simp⟩

/-! ### Chains -/

/-- What can follow the first operand of a chain up to its end, whatever that operand is. -/
def Tail (rules : Rules) (v : List Token) (next : Option Token) : Prop :=
  ∀ left, (next.any (Token.isWord sortWord) = false ∧ ∃ p, Spells rules (.links left) v next p) ∨
    ∃ x t w p keys, v = x ++ t :: w ∧ Spells rules (.links left) x (some t) p ∧
      t.isWord sortWord = true ∧ keys ≠ [] ∧ KeysSpelling rules w next keys

namespace Tail

variable {u v w : List Token} {t : Token} {next : Option Token}

theorem nil (closes : Closing next) : Tail rules [] next := by
  rcases closes with rfl | rfl <;> exact fun left => .inl ⟨rfl, left, .done rfl⟩

theorem keys (sortby : t.isWord sortWord = true) {keys : List Index} (some_key : keys ≠ [])
    (sorting : KeysSpelling rules w next keys) : Tail rules (t :: w) next := by
  intro left
  have no_boolean : (some t).any Token.isBoolean = false := Token.isBoolean_of_sortWord sortby
  exact .inr ⟨[], t, w, left, keys, rfl, .done no_boolean, sortby, some_key, sorting⟩

theorem link {b : Boolean} {right : Phrase} (joined : BooleanSpelling u (ahead (v ++ w) next) b)
    (operand : Spells rules .operand v (ahead w next) right) (h : Tail rules w next) :
    Tail rules (u ++ (v ++ w)) next := by
  intro left
  rcases h (.join left b right) with ⟨unsorted, p, links⟩ | ⟨x, t, y, p, keys, rfl, links, rest⟩
  · exact .inl ⟨unsorted, p, .link joined operand links⟩
  · refine .inr ⟨u ++ (v ++ x), t, y, p, keys, by simp, .link ?_ ?_ links, rest⟩
    · simpa using joined
    · simpa using operand

theorem chain (h : Tail rules v next) {left : Phrase}
    (first : Spells rules .operand u (ahead v next) left) :
    ∃ p, Spells rules .chain (u ++ v) next p := by
  rcases h left with ⟨unsorted, p, links⟩ | ⟨x, t, w, p, keys, rfl, links, sortby, some_key, sorting⟩
  · exact ⟨p, .chain first links unsorted⟩
  · refine ⟨.sort p keys, ?_⟩
    rw [← List.append_assoc]
    exact .sorted (by simpa using first) links sortby some_key sorting

/-- A tail starts with a word. -/
theorem head (h : Tail rules v next) : v = [] ∨ ∃ t w, v = t :: w ∧ t.isText = true := by
  have linked {left p : Phrase} {x : List Token} {after : Option Token}
      (links : Spells rules (.links left) x after p) :
      x = [] ∨ ∃ t w, x = t :: w ∧ t.isText = true := by
    cases links with
    | done => exact .inl rfl
    | link joined _ _ =>
      cases joined
      exact .inr ⟨_, _, rfl, rfl⟩
  rcases h (.clause (.ofTerm ⟨""⟩)) with ⟨-, p, links⟩ | ⟨x, t, w, p, keys, rfl, links, sortby, -⟩
  · exact linked links
  · rcases linked links with rfl | ⟨t', w', rfl, text⟩
    · exact .inr ⟨t, w, rfl, Token.isText_of_isWord sortby⟩
    · exact .inr ⟨t', _, rfl, text⟩

end Tail

/-! ### The whole grammar -/

/-- A chain behind declarations that stand in front of it. -/
def Scoped (rules : Rules) (u : List Token) (next : Option Token) : Prop :=
  ∃ d x ds p, u = d ++ x ∧ Written rules d (ahead x next) ds ∧ Spells rules .chain x next p

theorem Scoped.prepend (quotes : rules.rejectQuotedName = false) {u v : List Token}
    {next : Option Token} (h : Scoped rules v next) (declared : Group u (ahead v next)) :
    ∃ d x ds p, u ++ v = d ++ x ∧ Written rules d (ahead x next) ds ∧ (u ≠ [] → ds ≠ []) ∧
      Spells rules .chain x next p := by
  obtain ⟨d, x, ds, p, rfl, written, chain⟩ := h
  obtain ⟨ds', written, some_name⟩ := declared.written_append quotes (ahead_append d x next).symm written
  exact ⟨u ++ d, x, ds', p, by simp, written, some_name, chain⟩

/-- How a part is read that has a tail behind it: a chain takes it all, a subquery a first part of
    it, and links become part of it. -/
def Read (rules : Rules) : Part → List Token → List Token → Option Token → Prop
  | .query, u, v, next => ∃ p, Spells rules .query (u ++ v) next p
  | .chain, u, v, next => Scoped rules (u ++ v) next
  | .links, u, v, next => Tail rules (u ++ v) next
  | .subquery, u, v, next => Scoped rules (u ++ v) next ∧ ∃ x y p, v = x ++ y ∧
      Spells rules .operand (u ++ x) (ahead y next) p ∧ Tail rules y next

/-- An operand that starts otherwise than with a declaration makes a chain with what follows it. -/
theorem Tail.scoped {u v : List Token} {next : Option Token} {p : Phrase} (h : Tail rules v next)
    (operand : Spells rules .operand u (ahead v next) p)
    (plain : ∃ t w, u = t :: w ∧ t ≠ .comparison .gt) : Scoped rules (u ++ v) next := by
  obtain ⟨q, chain⟩ := h.chain operand
  obtain ⟨t, w, rfl, ht⟩ := plain
  exact ⟨[], _, [], q, rfl, .nil (by simpa using ht), chain⟩

/-- Declarations in front of a chain and its tail open a scope. -/
theorem Scoped.declared (quotes : rules.rejectQuotedName = false)
    (duplicates : rules.rejectDuplicatePrefix = false) {u v w : List Token} {next : Option Token}
    (h : Scoped rules (v ++ w) next) (declared : Group u (ahead v (ahead w next))) :
    ∃ d x ds p, u ++ v ++ w = d ++ x ∧ GroupSpelling rules d (ahead x next) ds ∧
      (u ≠ [] → ds ≠ []) ∧ Spells rules .chain x next p := by
  rw [← ahead_append] at declared
  obtain ⟨d, x, ds, p, split, written, some_name, chain⟩ := h.prepend quotes declared
  refine ⟨d, x, ds, p, ?_, .group written (addable_of_lenient duplicates _ _), some_name, chain⟩
  rw [List.append_assoc, split]

/-- A subquery that leaves the whole tail behind it. -/
theorem Tail.subquery {u v : List Token} {next : Option Token} {p : Phrase} (tail : Tail rules v next)
    (operand : Spells rules .operand u (ahead v next) p)
    (plain : ∃ t w, u = t :: w ∧ t ≠ .comparison .gt) : Read rules .subquery u v next :=
  ⟨tail.scoped operand plain, [], v, p, rfl, by rwa [List.append_nil], tail⟩

/-- A subquery behind declarations takes the whole tail. -/
theorem Scoped.subquery (quotes : rules.rejectQuotedName = false)
    (duplicates : rules.rejectDuplicatePrefix = false) {u v w : List Token} {next : Option Token}
    (h : Scoped rules (v ++ w) next) (closes : Closing next)
    (declared : Group u (ahead v (ahead w next))) (some_name : u ≠ []) :
    Read rules .subquery (u ++ v) w next := by
  obtain ⟨d, x, ds, p, split, group, some_ds, chain⟩ := h.declared quotes duplicates declared
  have operand := Spells.enter group (some_ds some_name) chain
  obtain ⟨written, -⟩ := group
  rw [Read, split]
  refine ⟨⟨d, x, ds, p, rfl, written, chain⟩, w, [], .scope ds p, (List.append_nil w).symm, ?_,
    Tail.nil closes⟩
  rwa [split]

/-- A link joins a subquery to the tail behind it, the boolean in front. -/
theorem Tail.joined {t : Token} {m x w v : List Token} {next : Option Token}
    (joins : t.isBoolean = true) (refined : Modifiers .wellFormed m (ahead (x ++ w) (ahead v next)))
    (h : Read rules .subquery x (w ++ v) next) : Tail rules (t :: (m ++ (x ++ w)) ++ v) next := by
  obtain ⟨-, y, z, p, split, operand, tail⟩ := h
  have behind : ahead (x ++ w) (ahead v next) = ahead (x ++ y ++ z) next := by
    rw [← ahead_append, List.append_assoc, split, ← List.append_assoc]
  obtain ⟨s, c, rfl, connects⟩ : ∃ s c, t = .word s ∧ Connective.ofWord? s = some c := by
    cases t with
    | word s => exact ⟨s, _, rfl, Option.eq_some_of_isSome joins⟩
    | _ => simp [Token.isBoolean] at joins
  -- What follows the modifiers starts an operand, and no operand starts with a slash.
  have modified : ahead (x ++ w) (ahead v next) ≠ some .slash := by
    obtain ⟨t, r, start, ht⟩ := operand.operand_head
    rw [behind, start]
    simpa using ht
  obtain ⟨ms, refined⟩ := exists_modifiers refined modified
  rw [behind] at refined
  simpa [split] using Tail.link (.word connects refined) operand tail

/-- Nothing but its end stands behind a chain that is sorted. -/
theorem Tail.eq_nil {v : List Token} {next : Option Token} (tail : Tail rules v next)
    (ends : (ahead v next).any Token.isText = false) : v = [] := by
  rcases tail.head with rfl | ⟨t, w, rfl, text⟩
  · rfl
  · exact absurd (ends.symm.trans (by simpa using text)) (by simp)

/-- What can be derived is read, together with the tail behind it. -/
theorem read_of_derives (tolerant : rules.rejectEmptyTerm = false)
    (quotes : rules.rejectQuotedName = false) (duplicates : rules.rejectDuplicatePrefix = false)
    {part : Part} {u : List Token} {after : Option Token} (h : Derives .wellFormed part u after) :
    ∀ {v next}, Closing next → ahead v next = after → Tail rules v next → Read rules part u v next := by
  induction h with
  | query declared _ ih =>
    rintro v next closes rfl tail
    obtain ⟨d, x, ds, p, split, group, -, chain⟩ :=
      (ih closes rfl tail).declared quotes duplicates declared
    rw [Read, split]
    exact ⟨.scope ds p, .query group chain⟩
  | chain _ _ ih ih' =>
    rintro v next closes rfl tail
    have tail := ih' closes rfl tail
    rw [Read, List.append_assoc]
    exact (ih closes (ahead_append _ _ _) tail).1
  | sorted _ _ sortby keys ih ih' =>
    rintro v next closes rfl tail
    -- Sort keys take every text that follows, and a tail starts with one.
    obtain rfl := tail.eq_nil keys.ends
    obtain ⟨ks, some_key, sorting⟩ := exists_keys quotes keys (by rcases closes with rfl | rfl <;> simp)
    have tail := ih' closes rfl (Tail.keys sortby some_key sorting)
    rw [Read, List.append_nil]
    exact (ih closes (ahead_append _ _ _) tail).1
  | done => exact fun _ _ tail => tail
  | link joins refined _ _ ih ih' =>
    rintro v next closes rfl tail
    exact Tail.joined joins refined (ih closes (ahead_append _ _ _) (ih' closes rfl tail))
  -- Inside the parentheses nothing of the tail is in sight; it goes on behind them.
  | paren _ ih =>
    rintro v next closes rfl tail
    obtain ⟨p, query⟩ := ih (v := []) (.inr rfl) rfl (Tail.nil (.inr rfl))
    rw [List.append_nil] at query
    exact tail.subquery (.paren query) ⟨_, _, rfl, by simp⟩
  | enter declared some_name _ ih =>
    rintro v next closes rfl tail
    exact (ih closes rfl tail).subquery quotes duplicates closes declared some_name
  | clause spelled =>
    rintro v next closes rfl tail
    obtain ⟨c, clause⟩ := exists_clause tolerant quotes spelled
    obtain ⟨t, w, rfl, -, gt, -⟩ := clause.head
    exact tail.subquery (.clause clause) ⟨t, w, rfl, gt⟩

/-! ### Limits -/

/-- How many groups of declarations are open in a phrase at once. -/
def depth : Phrase → Nat
  | .clause _ => 0
  | .join left _ right => max (depth left) (depth right)
  | .sort body _ => depth body
  | .scope _ body => depth body + 1

theorem height_le_size (p : Phrase) : p.height ≤ p.size := by
  induction p with
  | clause c => exact Nat.le_refl _
  | join left b right ih ih' => simp only [Phrase.height, Phrase.size]; omega
  | sort body keys ih => exact ih
  | scope group body ih => exact ih

theorem fits_of_depth_le (duplicates : rules.rejectDuplicatePrefix = false) (p : Phrase) :
    ∀ (limit : Nat) (groups : List Declarations), depth p ≤ limit → p.height ≤ rules.maxDepth →
      p.Fits rules limit groups := by
  induction p with
  | clause c => exact fun _ _ _ _ => trivial
  | join left b right ih ih' =>
    intro limit groups shallow low
    simp only [depth, Phrase.height] at shallow low
    exact ⟨ih limit groups (by omega) (by omega), ih' limit groups (by omega) (by omega), low⟩
  | sort body keys ih => exact ih
  | scope group body ih =>
    intro limit groups shallow low
    obtain ⟨limit, rfl⟩ : ∃ l, limit = l + 1 := ⟨limit - 1, by simp only [depth] at shallow; omega⟩
    simp only [depth] at shallow
    exact ⟨by simp [duplicates], ih limit _ (by omega) low⟩

/-- How many nodes and open groups some tokens can spell at most. -/
def Small : ContextualQuery.Part → List Token → Phrase → Prop
  | .query, u, p => p.size ≤ u.length ∧ depth p ≤ u.length + 1
  | .chain, u, p | .operand, u, p => p.size ≤ u.length ∧ depth p ≤ u.length
  | .links left, u, p =>
    p.size ≤ left.size + u.length ∧ depth p ≤ max (depth left) u.length

theorem small_of_spells {part : ContextualQuery.Part} {u : List Token} {next : Option Token}
    {p : Phrase} (h : Spells rules part u next p) : Small part u p := by
  induction h with
  | query _ _ ih =>
    simp only [Small, Phrase.size, depth, List.length_append] at ih ⊢
    omega
  | chain _ _ _ ih ih' =>
    simp only [Small, List.length_append] at ih ih' ⊢
    omega
  | sorted _ _ _ _ _ ih ih' =>
    simp only [Small, Phrase.size, depth, List.length_append, List.length_cons] at ih ih' ⊢
    omega
  | done _ => simp [Small]
  | link joined _ _ ih ih' =>
    cases joined
    simp only [Small, Phrase.size, depth, List.length_append, List.length_cons] at ih ih' ⊢
    omega
  | paren _ ih =>
    simp only [Small, List.length_append, List.length_cons] at ih ⊢
    omega
  | enter declared some_name _ ih =>
    obtain ⟨written, -⟩ := declared
    cases written with
    | nil => exact absurd rfl some_name
    | cons first _ =>
      obtain ⟨t, w, rfl, -⟩ := startsWith_binding _ _ _ first
      simp only [Small, Phrase.size, depth, List.length_append, List.length_cons] at ih ⊢
      omega
  | clause spelled =>
    cases spelled <;> simp [Small, Phrase.size, depth]

/-! ### Acceptance -/

/-- With all switches off and no limit in the way, the texts that are queries are those whose tokens
    can be derived, all names and terms being well formed by themselves. -/
theorem exists_parse_iff_derives {rules : Rules} {source : String} {ts : List Token}
    (lexed : Lexemes.ofText rules.wordChars source = { tokens := ts })
    (tolerant : rules.rejectEmptyTerm = false) (quotes : rules.rejectQuotedName = false)
    (duplicates : rules.rejectDuplicatePrefix = false) (deep : ts.length + 1 ≤ rules.maxDepth) :
    (∃ q, parse rules source = .ok q) ↔ Derives .wellFormed .query ts none := by
  simp only [parse_eq_ok, lexed, Lexemes.mk.injEq, and_true]
  constructor
  · rintro ⟨q, us, p, rfl, spelled, -⟩
    exact derives_of_spells tolerant spelled
  · intro derived
    obtain ⟨p, spelled⟩ :=
      read_of_derives tolerant quotes duplicates derived (.inl rfl) rfl (Tail.nil (.inl rfl))
    rw [List.append_nil] at spelled
    obtain ⟨few, shallow⟩ := small_of_spells spelled
    have low : p.height ≤ rules.maxDepth := by
      have := height_le_size p
      omega
    exact ⟨_, ts, p, rfl, spelled, fits_of_depth_le duplicates p _ _ (by omega) low, rfl⟩

/-- Declarations in front of a subquery, a modifier with a value and sort keys. -/
theorem derives_of_parse_sorted :
    (∃ q, parse {} "a =/x=1 b and >p=\"u\" c sortby d/asc" = .ok q) ∧
      Derives .wellFormed .query [.word "a", .comparison .eq, .slash, .word "x", .comparison .eq,
        .word "1", .word "b", .word "and", .comparison .gt, .word "p", .comparison .eq,
        .quoted "\"u\"", .word "c", .word "sortby", .word "d", .slash, .word "asc"] none := by
  have accepted := exists_eq_ok
    (show (parse {} "a =/x=1 b and >p=\"u\" c sortby d/asc").isOk = true by decide +kernel)
  refine ⟨accepted, ?_⟩
  exact (@exists_parse_iff_derives {} _ _ (by decide +kernel) rfl rfl rfl (by decide)).1 accepted

/-- That names and terms are well formed cannot be left out: an anchor alone has the form of a query
    and is none. -/
theorem not_forall_parse_iff_derives_all :
    ¬ ∀ (rules : Rules) (source : String) (ts : List Token),
      Lexemes.ofText rules.wordChars source = { tokens := ts } → rules.rejectEmptyTerm = false →
      rules.rejectQuotedName = false → rules.rejectDuplicatePrefix = false →
      ts.length + 1 ≤ rules.maxDepth →
      ((∃ q, parse rules source = .ok q) ↔ Derives .all .query ts none) := by
  intro claim
  have derived : Derives .all .query [.word "^"] none :=
    .query .nil (.chain (.clause (.alone rfl (.word trivial))) .done)
  obtain ⟨q, accepted⟩ :=
    (claim {} "^" [.word "^"] (by decide +kernel) rfl rfl rfl (by decide)).2 derived
  have refused : (parse {} "^").isOk = false := by decide +kernel
  rw [accepted] at refused
  simp [Except.isOk, Except.toBool] at refused

end ContextualQuery.Grammar
