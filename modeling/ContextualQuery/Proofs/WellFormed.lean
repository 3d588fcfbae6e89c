import ContextualQuery.Proofs.PrefixMap
import ContextualQuery.Proofs.RoundTrip.Parts
import ContextualQuery.Proofs.Search.Terms

/-! Trees that are read are well formed.

    Names are split at their only dot and are in lower case on both sides of it; a relation is taken
    for a comparison, `all` or `any` in the language's own set only; a clause says what it searches
    for, and its index is never refined, so nothing is ever refused for the modifiers of an index.

    Names are lower-cased before they are split behind slashes and in relations, and half by half in
    indexes and sort keys. It comes to the same, since lower-casing neither makes nor removes dots
    (`mem_lowercase`) and changes nothing the second time. -/

namespace ContextualQuery

open Lexemes Reading Unicode

variable {rules : Rules} {s : String} {u : List Token} {next : Option Token} {t : Token}

/-! ### What is well formed -/

/-- Whether a text can stand on a side of the dot in a name. -/
def IsHalf (s : String) : Prop := '.' ∉ s.toList ∧ lowercase s = s

/-- A name without a set, or with one. -/
def QualifiedName.WellFormed (n : QualifiedName) : Prop :=
  n.set = "" ∧ '.' ∉ n.base.toList ∨ n.set ≠ "" ∧ IsHalf n.set ∧ IsHalf n.base

/-- Modifiers are not refined themselves, and what they are compared with has a text. -/
def Modifier.WellFormed (m : Modifier) : Prop :=
  m.name.WellFormed ∧ m.refinements = [] ∧ (m.value = "" ↔ m.comparison = none)

/-- The sets that a kind of relation may belong to. -/
def RelationKind.Suits (set : String) : RelationKind → Prop
  | .named base =>
    set ≠ "" ∧ IsHalf set ∧ IsHalf base ∧ (set = ContextSet.cqlName → base ≠ "all" ∧ base ≠ "any")
  | .comparison _ | .all | .any => set = ContextSet.cqlName

def Relation.WellFormed (r : Relation) : Prop :=
  r.kind.Suits r.set ∧ ∀ m ∈ r.modifiers, m.WellFormed

def Boolean.WellFormed (b : Boolean) : Prop := ∀ m ∈ b.modifiers, m.WellFormed

def Index.WellFormed (i : Index) : Prop := i.name.WellFormed ∧ ∀ m ∈ i.modifiers, m.WellFormed

/-- A term has more than anchors in it, and more than its quotes where the rules ask for it. -/
def Term.WellFormed (rules : Rules) (t : Term) : Prop :=
  t.text ≠ "" ∧ (∃ c ∈ t.text.toList, c ≠ '^') ∧ (rules.rejectEmptyTerm = true → t.text ≠ "\"\"")

/-- The index of a clause is a bare name. -/
def Clause.WellFormed (rules : Rules) (c : Clause) : Prop :=
  c.index.WellFormed ∧ c.index.modifiers = [] ∧ c.relation.WellFormed ∧ c.term.WellFormed rules

def NodeInfo.WellFormed (info : NodeInfo) : Prop :=
  info.prefixes.Lower ∧ ∀ k ∈ info.sortKeys, k.WellFormed

/-- Whether all that a tree is made of is well formed. -/
def Node.WellFormed (rules : Rules) : Node → Prop
  | .clause info c => info.WellFormed ∧ c.WellFormed rules
  | .triple info left boolean right =>
    info.WellFormed ∧ left.WellFormed rules ∧ boolean.WellFormed ∧ right.WellFormed rules

/-- Either half of a name is lower-cased when it has been split off. -/
theorem isHalf_lowercase (free : '.' ∉ s.toList) : IsHalf (lowercase s) :=
  ⟨by rwa [mem_lowercase isAlphanumeric_dot (by decide)], lowercase_lowercase s⟩

/-! ### Names and modifiers -/

/-- A name that was split has a set in lower case and a base in lower case, or no set at all. -/
theorem wellFormed_of_splitName {n : QualifiedName} (split : splitName s = .ok n) :
    n.WellFormed := by
  rcases splitName_eq_ok.1 split with ⟨free, rfl⟩ | ⟨set, base, -, some_char, free, free', rfl⟩
  · exact .inl ⟨rfl, free⟩
  · exact .inr ⟨lowercase_ne_empty (by simpa using some_char),
      isHalf_lowercase (by simpa using free), isHalf_lowercase (by simpa using free')⟩

/-- Names of either spelling are split. -/
theorem NameSpelling.wellFormed {n : QualifiedName} (h : NameSpelling rules t n) :
    n.WellFormed := by
  cases h with
  | word split | quoted _ split => exact wellFormed_of_splitName split

namespace Token.Lexed

variable {punctuation : String}

/-- A word does not start with a quote, whatever punctuation words hold. -/
theorem word_ne_quotes (h : (Token.word s).Lexed punctuation) : s ≠ "\"\"" := by
  rintro rfl
  obtain ⟨u, rest, taken⟩ := h
  have chars : u = ['"', '"'] := by
    rw [← String.toList_ofList (l := u), ← taken.text_eq]
    rfl
  generalize word : Token.word "\"\"" = t at taken
  cases taken with
  | word opens =>
    obtain ⟨rfl, -⟩ := List.cons.inj chars
    exact absurd opens.1 (by decide)
  | openWord =>
    have last := congrArg List.getLast? chars
    simp at last
  | _ => cases word

end Token.Lexed

/-- The name of a modifier has been split, and its value is a token of text if it has one. -/
theorem ModifierSpelling.wellFormed {m : Modifier} (h : ModifierSpelling u next m)
    (lexed : ∀ t ∈ u, t.Lexed rules.wordChars) : m.WellFormed := by
  cases h with
  | plain split _ => exact ⟨wellFormed_of_splitName split, rfl, by simp⟩
  | @valued _ _ _ v _ split _ =>
    have some_char : v.text ≠ "" := (lexed v (by simp)).text_ne_empty
    exact ⟨wellFormed_of_splitName split, rfl, by simp [some_char]⟩

theorem wellFormed_of_modifiersSpelling {ms : List Modifier} (h : ModifiersSpelling u next ms)
    (lexed : ∀ t ∈ u, t.Lexed rules.wordChars) : ∀ m ∈ ms, m.WellFormed :=
  forall_of_sequence (fun _ _ _ spelled => spelled.wellFormed) h lexed

/-! ### Relations, booleans, sort keys -/

/-- A word of the set `cql` is told apart from the comparisons and kept as it is. -/
theorem Relation.suits_kindOf {set base : String} (some_char : set ≠ "") (half : IsHalf set)
    (half' : IsHalf base) : (kindOf set base).Suits set := by
  unfold kindOf
  split
  next all => exact all.1
  next not_all =>
    split
    next any => exact any.1
    next not_any =>
      exact ⟨some_char, half, half', fun own => ⟨fun h => not_all ⟨own, h⟩, fun h => not_any ⟨own, h⟩⟩⟩

theorem cqlName_ne_empty : ContextSet.cqlName ≠ "" := by
  decide

theorem isHalf_cqlName : IsHalf ContextSet.cqlName := by
  unfold IsHalf
  decide

/-- The relation of a word in lower case. -/
theorem Relation.suits_ofWord {n : QualifiedName} (split : splitName s = .ok n)
    (lower : ∀ c ∈ s.toList, IsLower c) (ms : List Modifier) :
    (ofWord s ms).kind.Suits (ofWord s ms).set := by
  have fixed {cs : List Char} (lower : ∀ c ∈ cs, IsLower c) :
      lowercase (String.ofList cs) = String.ofList cs := by
    rw [lowercase, String.toList_ofList, lowerAfter_of_isLower [] lower]
  rcases splitName_eq_ok.1 split with ⟨free, rfl⟩ | ⟨set, base, chars, some_char, free, free', rfl⟩
  · rw [ofWord_of_not_mem free]
    refine suits_kindOf cqlName_ne_empty isHalf_cqlName ⟨free, ?_⟩
    simpa using fixed lower
  · rw [ofWord_of_split chars free]
    rw [chars, List.forall_mem_append, List.forall_mem_cons] at lower
    exact suits_kindOf (by simpa using some_char) ⟨by simpa using free, fixed lower.1⟩
      ⟨by simpa using free', fixed lower.2.2⟩

/-- A comparison belongs to `cql`, a word to the set in front of its dot. -/
theorem RelationSpelling.wellFormed {r : Relation} (h : RelationSpelling u next r)
    (lexed : ∀ t ∈ u, t.Lexed rules.wordChars) : r.WellFormed := by
  cases h with
  | comparison refined =>
    exact ⟨rfl, wellFormed_of_modifiersSpelling refined (List.forall_mem_cons.1 lexed).2⟩
  | word split refined =>
    refine ⟨Relation.suits_ofWord split ?_ _, ?_⟩
    · rw [toList_lowercase]
      exact fun c => isLower_of_mem_lowerAfter
    · rw [Relation.modifiers_ofWord]
      exact wellFormed_of_modifiersSpelling refined (List.forall_mem_cons.1 lexed).2

theorem BooleanSpelling.wellFormed {b : Boolean} (h : BooleanSpelling u next b)
    (lexed : ∀ t ∈ u, t.Lexed rules.wordChars) : b.WellFormed := by
  obtain ⟨-, refined⟩ := h
  exact wellFormed_of_modifiersSpelling refined (List.forall_mem_cons.1 lexed).2

theorem KeySpelling.wellFormed {k : Index} (h : KeySpelling rules u next k)
    (lexed : ∀ t ∈ u, t.Lexed rules.wordChars) : k.WellFormed := by
  obtain ⟨named, refined⟩ := h
  exact ⟨named.wellFormed, wellFormed_of_modifiersSpelling refined (List.forall_mem_cons.1 lexed).2⟩

/-! ### Terms and clauses -/

/-- A term that passes the check has more than anchors in it, and a text that may not be empty is
    not. -/
theorem term_of_checkTerm {raw inner : String} {term : Term}
    (h : checkTerm rules raw inner = .ok term) :
    (∃ c ∈ term.text.toList, c ≠ '^') ∧ (rules.rejectEmptyTerm = true → inner ≠ "") := by
  rw [(checkTerm_eq_ok h).1]
  unfold checkTerm at h
  split at h
  · contradiction
  next not_all =>
    split at h
    · contradiction
    next not_empty =>
      exact ⟨by simpa using not_all, fun strict empty => not_empty (by simp [strict, empty])⟩

/-- A term is no anchors alone, escapes only what may be escaped, and is not empty under the rule
    against that. -/
theorem Term.wellFormed_of_termOf {term : Term} (lexed : t.Lexed rules.wordChars)
    (searched : termOf rules (some t) = .ok term) : term.WellFormed rules := by
  have present {raw inner : String} (h : checkTerm rules raw inner = .ok term) : term.text ≠ "" := by
    obtain ⟨⟨c, hc, -⟩, -⟩ := term_of_checkTerm h
    intro none
    simp [none] at hc
  cases t with
  | word s =>
    refine ⟨present searched, (term_of_checkTerm searched).1, fun _ => ?_⟩
    rw [(checkTerm_eq_ok searched).1]
    exact lexed.word_ne_quotes
  | symbol c =>
    refine ⟨present searched, (term_of_checkTerm searched).1, fun _ quotes => ?_⟩
    rw [(checkTerm_eq_ok searched).1] at quotes
    have length := congrArg (fun s : String => s.toList.length) quotes
    simp [Char.toString] at length
  | quoted s =>
    obtain ⟨more, strict⟩ := term_of_checkTerm searched
    refine ⟨present searched, more, fun rejects quotes => strict rejects ?_⟩
    rw [(checkTerm_eq_ok searched).1] at quotes
    subst quotes
    rfl
  | openParen | closeParen | slash | comparison c => simp [termOf] at searched

/-- All parts of a clause are. -/
theorem ClauseSpelling.wellFormed {c : Clause} (h : ClauseSpelling rules u next c)
    (lexed : ∀ t ∈ u, t.Lexed rules.wordChars) : c.WellFormed rules := by
  cases h with
  | full named _ related searched =>
    obtain ⟨-, lexed⟩ := List.forall_mem_cons.1 lexed
    obtain ⟨relation, term⟩ := List.forall_mem_append.1 lexed
    exact ⟨⟨named.wellFormed, by simp⟩, rfl, related.wellFormed relation,
      Term.wellFormed_of_termOf (term _ (by simp)) searched⟩
  | alone _ searched =>
    have own : IsHalf serverChoice := by
      unfold IsHalf
      decide
    exact ⟨⟨.inr ⟨cqlName_ne_empty, isHalf_cqlName, own⟩, by simp [Clause.ofTerm]⟩, rfl,
      ⟨rfl, by simp [Clause.ofTerm]⟩, Term.wellFormed_of_termOf (lexed _ (by simp)) searched⟩

/-! ### Phrases and trees -/

/-- Whether all that a phrase is made of is well formed. -/
def Phrase.WellFormed (rules : Rules) : Phrase → Prop
  | .clause c => c.WellFormed rules
  | .join left boolean right =>
    left.WellFormed rules ∧ boolean.WellFormed ∧ right.WellFormed rules
  | .sort body keys => body.WellFormed rules ∧ ∀ k ∈ keys, k.WellFormed
  | .scope _ body => body.WellFormed rules

/-- What holds of the parts of a phrase holds of the phrase. -/
theorem wellFormed_hereditary :
    Hereditary rules (Token.Lexed rules.wordChars) (Phrase.WellFormed rules) where
  clause lexed spelled := spelled.wellFormed lexed
  join lexed joined first second := ⟨first, joined.wellFormed lexed, second⟩
  sort lexed sorting below :=
    ⟨below, forall_of_sequence (fun _ _ _ spelled => spelled.wellFormed) sorting lexed⟩
  scope _ _ below := below

theorem Node.WellFormed.sortBy {n : Node} (h : n.WellFormed rules) {keys : List Index}
    (hkeys : ∀ k ∈ keys, k.WellFormed) : (n.sortBy keys).WellFormed rules := by
  cases n with
  | clause info c | triple info l b r => exact ⟨⟨h.1.1, hkeys⟩, h.2⟩

theorem Node.WellFormed.declare {n : Node} (h : n.WellFormed rules) (group : PrefixMap) :
    (n.declare group).WellFormed rules := by
  cases n with
  | clause info c | triple info l b r => exact ⟨⟨h.1.1.withDefaults group, h.1.2⟩, h.2⟩

/-- By induction on the phrase. -/
theorem Phrase.WellFormed.build {p : Phrase} (h : p.WellFormed rules) (n : Nat) :
    (p.build n).WellFormed rules := by
  have bare (id height : Nat) : NodeInfo.WellFormed { id, height } :=
    ⟨PrefixMap.lower_empty, by simp⟩
  induction p generalizing n with
  | clause c => exact ⟨bare _ _, h⟩
  | join left b right ih ih' => exact ⟨bare _ _, ih h.1 n, h.2.1, ih' h.2.2 _⟩
  | sort body keys ih => exact (ih h.1 n).sortBy h.2
  | scope group body ih => exact (ih h n).declare _

/-- All clauses of a tree are. -/
theorem Node.WellFormed.clauses {n : Node} (h : n.WellFormed rules) :
    ∀ c ∈ n.clauses, c.WellFormed rules := by
  induction n with
  | clause info c => exact fun c' hc => List.mem_singleton.1 hc ▸ h.2
  | triple info l b r ih ih' => exact List.forall_mem_append.2 ⟨ih h.2.1, ih' h.2.2.2⟩

/-- An accepted text is spelled by its tokens, each of which was lexed. -/
theorem root_wellFormed {source : String} {q : Query} (read : parse rules source = .ok q) :
    q.root.WellFormed rules := by
  obtain ⟨ts, p, lexed, spelled, -, rfl⟩ := parse_eq_ok.1 read
  exact (wellFormed_hereditary.holds spelled (ofText_eq.1 lexed).taken (by simp)).build 0

/-- What a clause without modifiers searches for. -/
theorem Clause.WellFormed.compile_eq {c : Clause} (h : c.WellFormed rules)
    (unrefined : c.relation.modifiers = []) (names : FieldNames) (scope : Scope) :
    c.compile names scope = c.relation.compile
      (qualifierOf (names.fieldOf (scope.resolve c.index.name.set) c.index.name)) c.term := by
  obtain ⟨-, bare, -⟩ := h
  rw [Clause.compile, bare, unrefined]
  rfl

/-- Every tree that is read is well formed. So a clause is refused for the modifiers of its
    relation or not for modifiers at all. -/
theorem wellFormed_of_parse {source : String} {q : Query} (read : parse rules source = .ok q) :
    q.root.WellFormed rules ∧ ∀ c ∈ q.clauses, ∀ (names : FieldNames) (scope : Scope),
      c.compile names scope =
        if c.relation.modifiers.isEmpty then
          c.relation.compile
            (qualifierOf (names.fieldOf (scope.resolve c.index.name.set) c.index.name)) c.term
        else .error (.modified c.relation.text) := by
  obtain ⟨ts, p, lexed, spelled, -, rfl⟩ := parse_eq_ok.1 read
  have tree : (p.build 0).WellFormed rules :=
    (wellFormed_hereditary.holds spelled (ofText_eq.1 lexed).taken (by simp)).build 0
  refine ⟨tree, fun c hc names scope => ?_⟩
  obtain ⟨-, unrefined, -⟩ := tree.clauses c hc
  rw [Clause.compile, unrefined]
  cases c.relation.modifiers <;> rfl

/-- Two names with a set, a relation with a modifier, and a quoted term. -/
theorem wellFormed_of_parse_refined :
    ∃ q, parse Rules.strict ">X=y DC.Title CQL.Within/Rel=İ \"a\" sortby X.Date/Up" = .ok q ∧
      q.root.WellFormed Rules.strict ∧ ∀ c ∈ q.clauses, ∀ (names : FieldNames) (scope : Scope),
        c.compile names scope =
          if c.relation.modifiers.isEmpty then
            c.relation.compile
              (qualifierOf (names.fieldOf (scope.resolve c.index.name.set) c.index.name)) c.term
          else .error (.modified c.relation.text) := by
  obtain ⟨q, read⟩ := exists_eq_ok (show (parse Rules.strict
    ">X=y DC.Title CQL.Within/Rel=İ \"a\" sortby X.Date/Up").isOk = true by decide +kernel)
  exact ⟨q, read, wellFormed_of_parse read⟩

end ContextualQuery
