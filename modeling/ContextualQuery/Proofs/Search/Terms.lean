import ContextualQuery.Proofs.Reading.Usual
import ContextualQuery.Proofs.RoundTrip.Parts
import ContextualQuery.Proofs.Search.Fragments
import ContextualQuery.Search.Compile

/-! What terms contribute to search strings.

    A bare term is a word or a symbol, and the check of terms lets a backslash in it hold nothing but
    one of four characters, so it has neither quotes nor parentheses nor white space. A quoted term is
    one phrase. In either case the search string of a clause with `=` or `<>` is a fragment
    (`Clause.fragment_of_compile`), provided the name of its field is plain. -/

namespace ContextualQuery

open Lexemes Reading Unicode

variable {rules : Rules} {cs u v rest : List Char} {ts : List Token} {w : Token} {term : Term}

/-! ### Terms of a query -/

/-- The clauses of a phrase from left to right. -/
def Phrase.clauses : Phrase → List Clause
  | .clause c => [c]
  | .join left _ right => left.clauses ++ right.clauses
  | .sort body _ => body.clauses
  | .scope _ body => body.clauses

theorem clauses_build (p : Phrase) (n : Nat) : (p.build n).clauses = p.clauses := by
  induction p generalizing n with
  | clause c => rfl
  | join left b right ih ih' => rw [Phrase.build, Node.clauses, ih, ih', Phrase.clauses]
  | sort body keys ih =>
    rw [Phrase.build, Phrase.clauses, ← ih n]
    cases body.build n <;> rfl
  | scope group body ih =>
    rw [Phrase.build, Phrase.clauses, ← ih n]
    cases body.build n <;> rfl

/-- Whether the term of a clause is one of some tokens. -/
def Clause.SearchedIn (rules : Rules) (ts : List Token) (c : Clause) : Prop :=
  ∃ w ∈ ts, termOf rules (some w) = .ok c.term

/-- All terms of a phrase are tokens that it is spelled with. -/
theorem searched_hereditary :
    Hereditary rules (· ∈ ts) fun p => ∀ c ∈ p.clauses, c.SearchedIn rules ts where
  clause within spelled := by
    intro c hc
    obtain rfl := List.mem_singleton.1 hc
    cases spelled with
    | full _ _ _ searched => exact ⟨_, within _ (by simp), searched⟩
    | alone _ searched => exact ⟨_, within _ (by simp), searched⟩
  join _ _ first second := List.forall_mem_append.2 ⟨first, second⟩
  sort _ _ below := below
  scope _ _ below := below

/-! ### The text of a term -/

/-- How terms are written: with plain characters, where every backslash holds one, or as a phrase. -/
inductive TermSpelling : List Char → Prop
  | bare {word} (plain : ∀ c ∈ word, isPlain c = true) (escaped : Escaped isInside word) :
      TermSpelling word
  | quoted {body} (escaped : Escaped isInside body) : TermSpelling ('"' :: (body ++ ['"']))

theorem isPlain_of_opens {c : Char} (operator : isOperator c = false) (blank : isBlank c = false) :
    isPlain c = true := by
  simp only [isOperator, List.contains_eq_mem, decide_eq_false_iff_not, List.mem_cons,
    List.not_mem_nil, or_false, not_or] at operator
  obtain ⟨quote, opens, closes, -⟩ := operator
  simp [isPlain, quote, opens, closes, blank]

theorem isInside_of_isPlain {c : Char} (h : isPlain c = true) : isInside c = true := by
  simp only [isPlain, Bool.and_eq_true] at h
  exact h.2

theorem isPlain_of_isWordChar {c : Char} (h : isWordChar defaultWordChars c = true) :
    isPlain c = true :=
  isPlain_of_opens (isOperator_of_isWordChar h) (isBlank_of_isWordChar h)

/-- Where a backslash may hold special characters only, all characters of a word are plain. -/
theorem plain_of_special (escaped : Escaped (isWordChar defaultWordChars) cs)
    (special : escapesAreSpecial cs = true) : ∀ c ∈ cs, isPlain c = true := by
  induction escaped with
  | nil => simp
  | @pair c cs _ ih =>
    rw [escapesAreSpecial, Bool.and_eq_true] at special
    obtain ⟨held, later⟩ := special
    have word : isWordChar defaultWordChars c = true := by
      simp only [List.contains_eq_mem, List.mem_cons, List.not_mem_nil, or_false,
        decide_eq_true_eq] at held
      rcases held with rfl | rfl | rfl | rfl <;> decide
    have backslash : isWordChar defaultWordChars '\\' = true := by decide
    exact List.forall_mem_cons.2 ⟨isPlain_of_isWordChar backslash,
      List.forall_mem_cons.2 ⟨isPlain_of_isWordChar word, ih later⟩⟩
  | char plain admitted _ ih =>
    rw [escapesAreSpecial_cons plain] at special
    exact List.forall_mem_cons.2 ⟨isPlain_of_isWordChar admitted, ih special⟩

theorem termSpelling_of_termOf (taken : Takes defaultWordChars u w rest)
    (searched : termOf rules (some w) = .ok term) : TermSpelling term.text.toList := by
  cases taken with
  | @word c u _ opens escaped stops =>
    obtain ⟨text, special⟩ := checkTerm_eq_ok searched
    rw [String.toList_ofList] at special
    rw [text, String.toList_ofList]
    exact .bare (plain_of_special escaped special) (escaped.mono fun _ => isInside_of_isWordChar)
  | openWord opens escaped =>
    obtain ⟨-, special⟩ := checkTerm_eq_ok searched
    rw [String.toList_ofList, not_special_of_open escaped] at special
    contradiction
  | quoted escaped =>
    obtain ⟨text, -⟩ := checkTerm_eq_ok searched
    rw [text, String.toList_ofList]
    exact .quoted escaped
  | @symbol c _ opens plain refused =>
    obtain ⟨text, -⟩ := checkTerm_eq_ok searched
    have here : isPlain c = true := isPlain_of_opens opens.1 opens.2
    rw [text, Char.toString, String.toList_singleton]
    exact .bare (by simpa using here) (.char plain (isInside_of_isPlain here) .nil)
  | _ => contradiction

/-- A term without quotes stays as it is. -/
theorem Term.unquoted_of_plain {t : Term} (plain : ∀ c ∈ t.text.toList, isPlain c = true) :
    t.unquoted = t.text := by
  have same : Text.betweenQuotes? t.text.toList = none := by
    unfold Text.betweenQuotes?
    split
    next rest starts =>
      have quote := plain '"' (by rw [starts]; exact List.mem_cons_self)
      exact absurd quote (by decide)
    next => rfl
  rw [Term.unquoted, Text.unquote, same, Option.map_none, Option.getD_none]

namespace TermSpelling

theorem fragment (h : TermSpelling cs) : Fragment cs := by
  cases h with
  | bare plain _ => exact .plain plain
  | quoted escaped => exact .phrase (u := []) (by simp) escaped

/-- Without its quotes, a term may stand between quotes. -/
theorem unquoted {t : Term} (h : TermSpelling t.text.toList) : Escaped isInside t.unquoted.toList := by
  generalize whole : t.text.toList = cs at h
  cases h with
  | bare plain escaped =>
    rwa [Term.unquoted_of_plain (by rwa [whole]), whole]
  | @quoted body escaped =>
    have text : t.text = Text.quote (String.ofList body) := Text.eq_quote whole
    rwa [Term.unquoted, text, Text.unquote_quote, String.toList_ofList]

end TermSpelling

/-- Each term of a query is what some token of its text means. -/
theorem exists_taken_of_parse {source : String} {q : Query}
    (usual : rules.wordChars = defaultWordChars) (read : parse rules source = .ok q) :
    ∀ c ∈ q.clauses, ∃ w u rest, Takes defaultWordChars u w rest ∧
      termOf rules (some w) = .ok c.term := by
  obtain ⟨ts, p, lexed, spelled, -, rfl⟩ := parse_eq_ok.1 read
  rw [usual] at lexed
  intro c hc
  rw [Query.clauses, clauses_build] at hc
  obtain ⟨w, hw, searched⟩ := searched_hereditary.holds spelled (fun _ => id) (by simp) c hc
  obtain ⟨u, rest, taken⟩ := (ofText_eq.1 lexed).taken w hw
  exact ⟨w, u, rest, taken, searched⟩

/-- All terms of a query are spelled so. -/
theorem termSpelling_of_parse {source : String} {q : Query}
    (usual : rules.wordChars = defaultWordChars) (read : parse rules source = .ok q) :
    ∀ c ∈ q.clauses, TermSpelling c.term.text.toList := by
  intro c hc
  obtain ⟨w, u, rest, taken, searched⟩ := exists_taken_of_parse usual read c hc
  exact termSpelling_of_termOf taken searched

/-! ### Clauses -/

theorem plain_qualifierOf {field : Option String}
    (plain : ∀ name ∈ field, name.toList.all isPlain = true) :
    ∀ c ∈ (qualifierOf field).toList, isPlain c = true := by
  cases field with
  | none => simp [qualifierOf]
  | some name =>
    have colon : isPlain ':' = true := by decide
    simpa [qualifierOf, colon, or_imp, forall_and] using plain name rfl

/-- The search string of a clause with `=` or `<>` is a fragment if the name of its field is plain. -/
theorem Clause.fragment_of_compile {names : FieldNames} {scope : Scope} {c : Clause} {text : String}
    (asks : c.relation.kind = .comparison .eq ∨ c.relation.kind = .comparison .ne)
    (plain : ∀ field ∈ names.fieldOf (scope.resolve c.index.name.set) c.index.name,
      field.toList.all isPlain = true)
    (spelled : TermSpelling c.term.text.toList) (compiled : c.compile names scope = .ok text) :
    Fragment text.toList := by
  have front := plain_qualifierOf plain
  unfold Clause.compile at compiled
  split at compiled
  · contradiction
  · split at compiled
    · contradiction
    · rcases asks with eq | ne
      · rw [Relation.compile, eq] at compiled
        obtain rfl := Except.ok.inj compiled
        rw [String.toList_append]
        exact spelled.fragment.prepend front
      · rw [Relation.compile, ne] at compiled
        obtain rfl := Except.ok.inj compiled
        rw [String.toList_append, String.toList_append, Text.toList_quote]
        have minus : isPlain '-' = true := by decide
        exact .phrase (List.forall_mem_append.2 ⟨front, by simpa using minus⟩) spelled.unquoted

end ContextualQuery
