import ContextualQuery.Proofs.Escapes

/-! The grammar of queries.

        query       :=  declaration* chain
        chain       :=  subquery (BOOLEAN modifiers subquery)* (SORTBY key+)?
        subquery    :=  ( query )  |  declaration+ chain  |  clause
        clause      :=  name relation modifiers term  |  term
        modifiers   :=  (/ WORD (comparison text)?)*
        key         :=  text modifiers
        declaration :=  > (WORD =)? identifier
        identifier  :=  QUOTED  |  WORD (/ WORD?)*

    The grammar leaves open how far a chain behind declarations reaches; all derivations accept the
    same texts, and reading takes it as far as it goes. With all switches off and no limit in the
    way, a text is a query exactly if its tokens can be derived and its names and terms are well
    formed by themselves (`exists_parse_iff_derives`). -/

namespace ContextualQuery.Grammar

open Reading Unicode

/-! ### Derivations -/

/-- What is admitted as a name and as a term, whatever stands around it. -/
structure Vocabulary where
  name : String → Prop
  term : Token → Prop

/-- All that has the form of a name or a term. -/
def Vocabulary.all : Vocabulary := ⟨fun _ => True, fun _ => True⟩

/-- Names with one dot at most and not in front, and terms with more than anchors whose backslashes
    hold special characters only, escaped quotes being replaced first. -/
def Vocabulary.wellFormed : Vocabulary where
  name s := s.toList.count '.' ≤ 1 ∧ s.toList.head? ≠ some '.'
  term t := (∃ c ∈ t.text.toList, c ≠ '^') ∧
    ∀ held ∈ heldChars t.searched.toList, ∃ c ∈ specialChars, held = some c

section
variable (V : Vocabulary)

/-- The token of an index. -/
inductive IsName : Token → Prop
  | word {s} (formed : V.name s) : IsName (.word s)
  | quoted {s} (formed : V.name (Text.unquote s)) : IsName (.quoted s)

/-- The token of a term. -/
inductive IsTerm : Token → Prop
  | word {s} (formed : V.term (.word s)) : IsTerm (.word s)
  | quoted {s} (formed : V.term (.quoted s)) : IsTerm (.quoted s)
  | symbol {c} (formed : V.term (.symbol c)) : IsTerm (.symbol c)

/-- Modifiers. A comparison right behind a name always belongs to it. -/
inductive Modifiers : List Token → Option Token → Prop
  | nil {next} : Modifiers [] next
  | plain {s u next} (formed : V.name (lowercase s))
      (ends : (ahead u next).any Token.isComparison = false) (rest : Modifiers u next) :
      Modifiers (.slash :: .word s :: u) next
  | valued {s c v u next} (formed : V.name (lowercase s)) (text : v.isText = true)
      (rest : Modifiers u next) : Modifiers (.slash :: .word s :: .comparison c :: v :: u) next

/-- The token of a relation. -/
inductive IsRelation : Token → Prop
  | comparison {c} : IsRelation (.comparison c)
  | word {s} (formed : V.name (lowercase s)) : IsRelation (.word s)

/-- Clauses, the leaves of queries: one token ahead decides between the two forms. -/
inductive Leaf : List Token → Option Token → Prop
  | full {t r u w next} (named : IsName V t) (goesOn : endsTerm (some r) = false)
      (shut : r ≠ .openParen) (related : IsRelation V r) (refined : Modifiers V u (some w))
      (searched : IsTerm V w) : Leaf (t :: r :: (u ++ [w])) next
  | alone {w next} (ends : endsTerm next = true) (searched : IsTerm V w) : Leaf [w] next

/-- Sort keys: every text that follows is one. -/
inductive Keys : List Token → Option Token → Prop
  | one {t u next} (named : IsName V t) (refined : Modifiers V u next)
      (ends : next.any Token.isText = false) : Keys (t :: u) next
  | more {t u v next} (named : IsName V t) (refined : Modifiers V u (ahead v next))
      (rest : Keys v next) : Keys (t :: (u ++ v)) next

end

/-- Slashes and words, as many as there are. -/
inductive Path : List Token → Option Token → Prop
  | nil {next} (ends : next ≠ some .slash) : Path [] next
  | slash {u next} (ends : ∀ s, ahead u next ≠ some (.word s)) (rest : Path u next) :
      Path (.slash :: u) next
  | word {s u next} (rest : Path u next) : Path (.slash :: .word s :: u) next

/-- Identifiers of context sets. -/
inductive Identifier : List Token → Option Token → Prop
  | quoted {s next} : Identifier [.quoted s] next
  | path {s u next} (path : Path u next) : Identifier (.word s :: u) next

/-- Declarations. There is a name whenever an equals sign follows. -/
inductive Declaration : List Token → Option Token → Prop
  | named {s u next} (bound : Identifier u next) :
      Declaration (.comparison .gt :: .word s :: .comparison .eq :: u) next
  | unnamed {u next} (bound : Identifier u next)
      (nameless : ahead u.tail next ≠ some (.comparison .eq)) :
      Declaration (.comparison .gt :: u) next

/-- Declarations, any number of them. -/
inductive Group : List Token → Option Token → Prop
  | nil {next} : Group [] next
  | cons {u v next} (first : Declaration u (ahead v next)) (rest : Group v next) :
      Group (u ++ v) next

/-- The recursive parts of the grammar. The links of a chain are what follows its first operand. -/
inductive Part where | query | chain | links | subquery

/-- Which tokens can be derived as which part, given the token behind them. -/
inductive Derives (V : Vocabulary) : Part → List Token → Option Token → Prop
  | query {u v next} (declared : Group u (ahead v next)) (chain : Derives V .chain v next) :
      Derives V .query (u ++ v) next
  | chain {u v next} (first : Derives V .subquery u (ahead v next))
      (links : Derives V .links v next) : Derives V .chain (u ++ v) next
  | sorted {u v t w next} (first : Derives V .subquery u (ahead v (some t)))
      (links : Derives V .links v (some t)) (sortby : t.isWord sortWord = true)
      (keys : Keys V w next) : Derives V .chain (u ++ (v ++ t :: w)) next
  | done {next} : Derives V .links [] next
  | link {t u v w next} (joins : t.isBoolean = true) (refined : Modifiers V u (ahead (v ++ w) next))
      (operand : Derives V .subquery v (ahead w next)) (links : Derives V .links w next) :
      Derives V .links (t :: (u ++ (v ++ w))) next
  | paren {u next} (query : Derives V .query u (some .closeParen)) :
      Derives V .subquery (.openParen :: (u ++ [.closeParen])) next
  | enter {u v next} (declared : Group u (ahead v next)) (some_name : u ≠ [])
      (chain : Derives V .chain v next) : Derives V .subquery (u ++ v) next
  | clause {u next} (clause : Leaf V u next) : Derives V .subquery u next

/-! ### What is read can be derived -/

/-- A name can be split exactly if its dots are where they may be. -/
theorem exists_splitName_iff {s : String} :
    (∃ n, splitName s = .ok n) ↔ Vocabulary.wellFormed.name s := by
  constructor
  · rintro ⟨n, split⟩
    obtain ⟨free, -⟩ | ⟨set, base, chars, some_char, free, free', -⟩ := splitName_eq_ok.1 split
    · refine ⟨?_, fun dot => free (List.mem_of_mem_head? dot)⟩
      rw [List.count_eq_zero.2 free]
      exact Nat.zero_le 1
    · obtain ⟨c, set, rfl⟩ := List.exists_cons_of_ne_nil some_char
      refine ⟨?_, ?_⟩
      · rw [chars, List.count_append, List.count_cons_self, List.count_eq_zero.2 free,
          List.count_eq_zero.2 free']
      · rw [chars, List.cons_append, List.head?_cons]
        rintro ⟨⟩
        exact free List.mem_cons_self
  · rintro ⟨few, front⟩
    by_cases dot : '.' ∈ s.toList
    · obtain ⟨set, base, chars, free⟩ := List.eq_append_cons_of_mem dot
      rw [chars, List.count_append, List.count_cons_self, List.count_eq_zero.2 free] at few
      have free' : '.' ∉ base := List.count_eq_zero.1 (by omega)
      have some_char : set ≠ [] := by
        rintro rfl
        exact front (by rw [chars]; rfl)
      exact ⟨_, splitName_eq_ok.2 (.inr ⟨set, base, chars, some_char, free, free', rfl⟩)⟩
    · exact ⟨_, splitName_eq_ok.2 (.inl ⟨dot, rfl⟩)⟩

/-- So it is with a term, its anchors and its backslashes. -/
theorem exists_checkTerm_iff {raw inner : String} : (∃ m, checkTerm {} raw inner = .ok m) ↔
    (∃ c ∈ raw.toList, c ≠ '^') ∧ ∀ held ∈ heldChars inner.toList, ∃ c ∈ specialChars, held = some c := by
  rw [← escapesAreSpecial_iff]
  constructor
  · rintro ⟨m, checked⟩
    refine ⟨?_, (checkTerm_eq_ok checked).2⟩
    by_contra! anchors
    rw [checkTerm, if_pos (by simpa using anchors)] at checked
    cases checked
  · rintro ⟨more, special⟩
    exact ⟨_, (checkTerm_eq more (by simp)).trans (if_pos special)⟩

section
variable {rules : Rules}

/-- A sequence of modifiers, one by one. -/
theorem modifiers_of_spelling {u : List Token} {next : Option Token} {ms : List Modifier}
    (h : ModifiersSpelling u next ms) : Modifiers .wellFormed u next := by
  induction h with
  | nil ends => exact .nil
  | @cons u v next m ms first _ ih =>
    cases first with
    | plain split ends => exact .plain (exists_splitName_iff.1 ⟨_, split⟩) ends ih
    | valued split text => exact .valued (exists_splitName_iff.1 ⟨_, split⟩) text ih

/-- A name that was split has at most one dot, which is not in front. -/
theorem name_of_spelling {t : Token} {n : QualifiedName} (h : NameSpelling rules t n) :
    IsName .wellFormed t := by
  cases h with
  | word split => exact .word (exists_splitName_iff.1 ⟨_, split⟩)
  | quoted _ split => exact .quoted (exists_splitName_iff.1 ⟨_, split⟩)

theorem checkTerm_tolerant (h : rules.rejectEmptyTerm = false) (raw inner : String) :
    checkTerm rules raw inner = checkTerm {} raw inner := by
  simp [checkTerm, h]

/-- Where empty terms are allowed, terms are judged as under the default rules. -/
theorem termOf_tolerant (h : rules.rejectEmptyTerm = false) (o : Option Token) :
    termOf rules o = termOf {} o := by
  match o with
  | none | some .openParen | some .closeParen | some .slash | some (.comparison _) => rfl
  | some (.word _) | some (.quoted _) | some (.symbol _) =>
    simp only [termOf, checkTerm_tolerant h]

/-- What passes as a term is one token of text, or a sign that is no operator. -/
theorem term_of_termOf (tolerant : rules.rejectEmptyTerm = false) {w : Token}
    {m : Term} (h : termOf rules (some w) = .ok m) : IsTerm .wellFormed w := by
  rw [termOf_tolerant tolerant] at h
  match w, h with
  | .word _, h => exact .word (exists_checkTerm_iff.1 ⟨m, h⟩)
  | .quoted _, h => exact .quoted (exists_checkTerm_iff.1 ⟨m, h⟩)
  | .symbol _, h => exact .symbol (exists_checkTerm_iff.1 ⟨m, h⟩)

/-- Both forms of a clause are leaves. -/
theorem clause_of_spelling (tolerant : rules.rejectEmptyTerm = false) {u : List Token}
    {next : Option Token} {c : Clause} (h : ClauseSpelling rules u next c) :
    Leaf .wellFormed u next := by
  cases h with
  | @full t name u relation w term next named goesOn related searched =>
    have searched := term_of_termOf tolerant searched
    cases related with
    | comparison refined =>
      exact .full (name_of_spelling named) (goesOn _ rfl) (by simp) .comparison
        (modifiers_of_spelling refined) searched
    | word split refined =>
      exact .full (name_of_spelling named) (goesOn _ rfl) (by simp)
        (.word (exists_splitName_iff.1 ⟨_, split⟩))
        (modifiers_of_spelling refined) searched
  | alone ends searched => exact .alone ends (term_of_termOf tolerant searched)

/-- One key at least. -/
theorem keys_of_spelling {u : List Token} {next : Option Token} {keys : List Index}
    (h : KeysSpelling rules u next keys) : keys ≠ [] → Keys .wellFormed u next := by
  induction h with
  | nil ends => exact fun some_key => absurd rfl some_key
  | @cons u v next k ks first rest ih =>
    intro _
    obtain ⟨named, refined⟩ := first
    cases ks with
    | nil =>
      cases rest with
      | nil ends =>
        rw [List.append_nil]
        exact .one (name_of_spelling named) (modifiers_of_spelling refined) ends
    | cons k' ks' =>
      exact .more (name_of_spelling named) (modifiers_of_spelling refined) (ih (by simp))

/-- Slashes with or without a word behind them. -/
theorem path_of_spelling {u : List Token} {next : Option Token} {segments : List String}
    (h : Sequence (· == .slash) SegmentSpelling u next segments) : Path u next := by
  induction h with
  | nil ends => exact .nil (by rintro rfl; simp at ends)
  | cons first _ ih =>
    cases first with
    | slash ends => exact .slash ends ih
    | word => exact .word ih

theorem identifier_of_spelling {u : List Token} {next : Option Token} {i : String}
    (h : IdentifierSpelling rules u next i) : Identifier u next := by
  cases h with
  | quoted _ => exact .quoted
  | path path => exact .path (path_of_spelling path)

/-- Declarations, one by one. -/
theorem declarations_of_spelling {u : List Token} {next : Option Token}
    {ds : Declarations}
    (h : Sequence (· == .comparison .gt) (DeclarationSpelling rules) u next ds) :
    Group u next := by
  induction h with
  | nil ends => exact .nil
  | cons first _ ih =>
    refine .cons ?_ ih
    cases first with
    | named bound => exact .named (identifier_of_spelling bound)
    | unnamed bound nameless => exact .unnamed (identifier_of_spelling bound) nameless

/-- What tokens can be derived as, given what they spell. -/
def Part.of : ContextualQuery.Part → Part
  | .query => .query
  | .chain => .chain
  | .links _ => .links
  | .operand => .subquery

/-- By induction on what is spelled. Each rule of the reading is a rule of the grammar. -/
theorem derives_of_spells (tolerant : rules.rejectEmptyTerm = false) {part : ContextualQuery.Part}
    {u : List Token} {next : Option Token} {p : Phrase} (h : Spells rules part u next p) :
    Derives .wellFormed (.of part) u next := by
  induction h with
  | query declared _ ih =>
    obtain ⟨written, -⟩ := declared
    exact .query (declarations_of_spelling written) ih
  | chain _ _ _ ih ih' => exact .chain ih ih'
  | sorted _ _ sortby some_key sorting ih ih' =>
    rw [List.append_assoc]
    exact .sorted ih ih' sortby (keys_of_spelling sorting some_key)
  | done _ => exact .done
  | link joined _ _ ih ih' =>
    obtain ⟨joins, refined⟩ := joined
    exact .link (by simp [Token.isBoolean, joins]) (modifiers_of_spelling refined) ih ih'
  | paren _ ih => exact .paren ih
  | enter declared some_name _ ih =>
    obtain ⟨written, -⟩ := declared
    refine .enter (declarations_of_spelling written) ?_ ih
    cases written with
    | nil => exact absurd rfl some_name
    | cons first _ =>
      obtain ⟨t, v, rfl, -⟩ := startsWith_binding _ _ _ first
      simp
  | clause spelled => exact .clause (clause_of_spelling tolerant spelled)

end

end ContextualQuery.Grammar
