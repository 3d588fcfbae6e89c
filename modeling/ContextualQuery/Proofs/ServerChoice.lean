import ContextualQuery.Proofs.Reading.Recasing
import ContextualQuery.Proofs.Scoping
import ContextualQuery.Proofs.Search.Grouping

/-! Which clauses are searched for without a field.

    There are two reasons to leave the field of a clause out: its index is `serverchoice` in the
    language's own set, or its field comes out as `cql.serverchoice` in the end.

        cat                                      cat
        >cql="x" cat                             cat in the field of cql.serverchoice, if it has one
        >c="…/cql-v1.1" C.ServerChoice = cat     cat
        >"…/cql-v1.1" serverchoice = cat         cat
        >"…/cql-v1.1" ServerChoice = cat         ServerChoice:cat

    A term alone is read as a clause in the set that `cql` stands for, which a declaration may change.
    So whether it has a field is up to that declaration and to what is known about fields
    (`exists_fragment_of_alone`). The name of an index counts as it was read, and only names with a set
    are read in lower case. So without names of fields it is the names without a set whose case
    matters (`exists_fragment_of_choice`). -/

namespace ContextualQuery

open Lexemes Reading Unicode

variable {rules : Rules} {names : FieldNames} {s t source text : String} {n : QualifiedName}
  {q : Query} {p : Place} {info : NodeInfo} {c : Clause} {w : Token} {next : Option Token}

/-! ### Clauses of a query -/

/-- What a clause of a query that has a search string contributes to it. -/
theorem exists_fragment_compile (read : parse rules source = .ok q)
    (compiled : q.compile names = .ok text) (mem : p ∈ q.places) (here : p.node = .clause info c) :
    ∃ fragment, c.compile names p.scope = .ok fragment ∧ fragment.toList <:+: text.toList ∧
      c.relation.compile
        (qualifierOf (names.fieldOf (p.scope.resolve c.index.name.set) c.index.name)) c.term =
          .ok fragment := by
  have formed := (root_wellFormed read).clauses c (Node.mem_clauses_of_places mem here)
  obtain ⟨fragment, found, within⟩ := Node.exists_fragment (Query.compile_eq_ok.1 compiled) mem here
  have unrefined : c.relation.modifiers = [] := by
    by_contra refined
    simp [Clause.compile, formed.2.1, refined] at found
  exact ⟨fragment, found, within, by rw [← formed.compile_eq unrefined, found]⟩

/-- A clause of a query that has a given search string, by what is to be seen of it. -/
theorem exists_clause_of_compile (rules : Rules) (source : String) (names : FieldNames)
    (text : String) (test : Place → Clause → Bool)
    (h : ((parse rules source).toOption.any fun q =>
      (q.compile names).toOption == some text && q.places.any fun p => p.node.clause?.any (test p)) =
        true) :
    ∃ q p info c, parse rules source = .ok q ∧ q.compile names = .ok text ∧ p ∈ q.places ∧
      p.node = .clause info c ∧ test p c = true := by
  obtain ⟨q, read, known⟩ := exists_eq_ok_of_any h
  rw [Bool.and_eq_true, beq_iff_eq] at known
  obtain ⟨p, mem, info, c, here, seen⟩ := exists_clause_of_any known.2
  exact ⟨q, p, info, c, read, eq_ok_of_toOption known.1, mem, here, seen⟩

/-! ### Terms alone -/

/-- A clause of one token is the term that the token is. -/
theorem ClauseSpelling.eq_ofTerm (h : ClauseSpelling rules [w] next c) :
    c = .ofTerm c.term ∧ c.term.text = w.text := by
  generalize single : [w] = u at h
  cases h with
  | @full t _ u _ w' =>
    have length := congrArg List.length single
    simp at length
  | alone _ searched =>
    obtain ⟨rfl, -⟩ := List.cons.inj single
    exact ⟨rfl, (text_of_termOf searched).1.symm⟩

/-- The short name of the language's own set may be declared and is known otherwise. -/
theorem Scope.resolve_cqlName (scope : Scope) :
    scope.resolve ContextSet.cqlName =
      some ((scope.declared ContextSet.cqlName).getD ContextSet.cql) := by
  have own : ContextSet.reserved? (lowercase ContextSet.cqlName) = some ContextSet.cql := by decide
  rw [resolve, own, Option.some_or, ← declared]
  cases scope.declared ContextSet.cqlName <;> rfl

/-- The field of `cql.serverchoice` where `cql` stands for some set. -/
def FieldNames.choiceIn (names : FieldNames) (set : String) : String :=
  let inner :=
    if set = ContextSet.dublinCore then (names.elements.get? serverChoice).getD serverChoiceField
    else serverChoiceField
  (names.backend.get? inner).getD inner

theorem FieldNames.fieldOf_choice (names : FieldNames) (set : String) (term : Term) :
    names.fieldOf (some set) (Clause.ofTerm term).index.name =
      if set = ContextSet.cql ∨ Text.sameFold (names.choiceIn set) serverChoiceField = true then none
      else some (names.choiceIn set) := by
  have full : (Clause.ofTerm term).index.name.full = serverChoiceField := rfl
  have base : (Clause.ofTerm term).index.name.base = serverChoice := rfl
  rw [fieldOf, full, base, choiceIn]
  simp only [Option.some.injEq, and_true]
  by_cases own : set = ContextSet.cql <;> simp [own]

/-- Where nothing is known about the choice of the server, it is no field in any set. -/
theorem FieldNames.choiceIn_of_unknown (backend : names.backend.get? serverChoiceField = none)
    (elements : names.elements.get? serverChoice = none) (set : String) :
    names.choiceIn set = serverChoiceField := by
  simp [choiceIn, elements, backend]

/-- A term alone is searched for without a field exactly if `cql` is not declared around it to be
    another set, or has `cql.serverchoice` for its field in that set. Otherwise it is searched for in
    that field. -/
theorem exists_fragment_of_alone (read : parse rules source = .ok q)
    (compiled : q.compile names = .ok text) (mem : p ∈ q.places) (here : p.node = .clause info c)
    (alone : ClauseSpelling rules [w] next c) :
    ∃ fragment, c.compile names p.scope = .ok fragment ∧ fragment.toList <:+: text.toList ∧
      (fragment = w.text ↔ ∀ set, p.scope.declared ContextSet.cqlName = some set →
        set ≠ ContextSet.cql → Text.sameFold (names.choiceIn set) serverChoiceField = true) ∧
      (∀ set, p.scope.declared ContextSet.cqlName = some set → fragment ≠ w.text →
        fragment = names.choiceIn set ++ ":" ++ w.text) ∧
      (names.backend.get? serverChoiceField = none → names.elements.get? serverChoice = none →
        fragment = w.text) := by
  obtain ⟨fragment, found, within, searched⟩ := exists_fragment_compile read compiled mem here
  obtain ⟨bare, written⟩ := alone.eq_ofTerm
  let set := (p.scope.declared ContextSet.cqlName).getD ContextSet.cql
  have contributed : fragment = qualifierOf
      (if set = ContextSet.cql ∨ Text.sameFold (names.choiceIn set) serverChoiceField = true then none
        else some (names.choiceIn set)) ++ w.text := by
    have resolved : p.scope.resolve c.index.name.set = some set := by
      rw [bare]
      exact p.scope.resolve_cqlName
    rw [resolved, bare, FieldNames.fieldOf_choice] at searched
    rw [← written]
    exact (Except.ok.inj searched).symm
  -- a field is at least a colon longer, so the fragment alone tells whether there is one
  have none_iff : fragment = w.text ↔
      set = ContextSet.cql ∨ Text.sameFold (names.choiceIn set) serverChoiceField = true := by
    rw [contributed]
    split
    next chosen => simp [qualifierOf, chosen]
    next other => simp [qualifierOf, other]
  refine ⟨fragment, found, within, ?_, ?_, ?_⟩
  · rw [none_iff]
    cases declared : p.scope.declared ContextSet.cqlName with
    | none => simp [set, declared]
    | some set' => simp [set, declared, or_iff_not_imp_left]
  · intro set' declared other
    have same : set = set' := by simp [set, declared]
    rw [contributed, if_neg (none_iff.not.1 other), same]
    rfl
  · intro backend elements
    rw [none_iff, FieldNames.choiceIn_of_unknown backend elements]
    exact .inr (by decide)

/-! A backend that has a field for the choice of the server. -/

/-- Names of fields of a backend that searches everything in one field. -/
def FieldNames.everything : FieldNames where
  backend := .ofList [(serverChoiceField, "text")]

/-- Whether a clause is what a word stands for. -/
def Clause.isWord (word : String) (c : Clause) : Bool :=
  c.index.name = (ofTerm ⟨word⟩).index.name && c.index.modifiers.isEmpty &&
    (c.relation.set == ContextSet.cqlName && c.relation.kind = .comparison .eq) &&
    c.relation.modifiers.isEmpty && c.term.text == word

theorem Clause.isWord_iff {word : String} : c.isWord word = true ↔ c = .ofTerm ⟨word⟩ := by
  constructor
  · intro seen
    obtain ⟨⟨_, _⟩, ⟨_, _, _⟩, ⟨_⟩⟩ := c
    simp only [isWord, Bool.and_eq_true, decide_eq_true_eq, beq_iff_eq, List.isEmpty_iff] at seen
    obtain ⟨⟨⟨⟨rfl, rfl⟩, rfl, rfl⟩, rfl⟩, rfl⟩ := seen
    rfl
  · rintro rfl
    simp [isWord, ofTerm]

/-- The nearest declaration of `cql` counts. -/
theorem exists_fragment_of_alone_redeclared : ∃ q p info c,
    parse {} ">cql=\"x\" (cat or >cql=\"info:srw/cql-context-set/1/cql-v1.1\" dog)" = .ok q ∧
      q.compile .everything = .ok "(text:cat OR dog)" ∧ p ∈ q.places ∧ p.node = .clause info c ∧
      ClauseSpelling {} [.word "dog"] (some .closeParen) c ∧
      c.compile .everything p.scope = .ok "dog" := by
  obtain ⟨q, p, info, c, read, compiled, mem, here, seen⟩ := exists_clause_of_compile {}
    ">cql=\"x\" (cat or >cql=\"info:srw/cql-context-set/1/cql-v1.1\" dog)" .everything
    "(text:cat OR dog)"
    (fun p c => p.scope.declared ContextSet.cqlName == some ContextSet.cql && c.isWord "dog")
    (by decide +kernel)
  simp only [Bool.and_eq_true, beq_iff_eq, Clause.isWord_iff] at seen
  obtain ⟨declared, rfl⟩ := seen
  have alone : ClauseSpelling {} [.word "dog"] (some .closeParen) (.ofTerm ⟨"dog"⟩) :=
    .alone rfl rfl
  obtain ⟨fragment, found, -, chosen, -⟩ := exists_fragment_of_alone read compiled mem here alone
  have unqualified : fragment = "dog" := by
    refine chosen.2 fun set declared' other => ?_
    rw [declared] at declared'
    exact absurd (Option.some.inj declared').symm other
  exact ⟨q, p, info, _, read, compiled, mem, here, alone, unqualified ▸ found⟩

/-- A declaration of `cql` takes a term to the field of `cql.serverchoice`. -/
theorem qualified_of_declared_cql : ∃ q p info c,
    parse {} ">cql=\"x\" cat" = .ok q ∧ q.compile .everything = .ok "text:cat" ∧ p ∈ q.places ∧
      p.node = .clause info c ∧ ClauseSpelling {} [.word "cat"] none c ∧
      c.compile .everything p.scope = .ok "text:cat" ∧ "text:cat" ≠ "cat" := by
  obtain ⟨q, p, info, c, read, compiled, mem, here, seen⟩ := exists_clause_of_compile {}
    ">cql=\"x\" cat" .everything "text:cat"
    (fun p c => (c.compile .everything p.scope).toOption == some "text:cat" && c.isWord "cat")
    (by decide +kernel)
  simp only [Bool.and_eq_true, beq_iff_eq, Clause.isWord_iff] at seen
  obtain ⟨found, rfl⟩ := seen
  exact ⟨q, p, info, _, read, compiled, mem, here, .alone rfl rfl, eq_ok_of_toOption found,
    by decide⟩

/-! ### Names in another case -/

theorem fold_of_lower (lower : lowercase s = s) : Text.fold s = s := by
  rw [← lower]
  exact recase_lowercase recases_toLower s

namespace QualifiedName

/-- The choice of the server by its name. -/
def choice : QualifiedName := ⟨ContextSet.cqlName, serverChoice⟩

theorem WellFormed.splitName_full (h : n.WellFormed) (set : n.set ≠ "") :
    splitName n.full = .ok n := by
  obtain ⟨none, -⟩ | ⟨-, ⟨free, lower⟩, free', lower'⟩ := h
  · exact absurd none set
  · refine splitName_eq_ok.2 (.inr ⟨_, _, toList_full_of_set set,
      String.toList_eq_nil_iff.not.2 set, free, free', ?_⟩)
    rw [String.ofList_toList, String.ofList_toList, lower, lower']

theorem WellFormed.fold_full (h : n.WellFormed) (set : n.set ≠ "") : Text.fold n.full = n.full := by
  obtain ⟨none, -⟩ | ⟨-, ⟨-, lower⟩, -, lower'⟩ := h
  · exact absurd none set
  · have dot : Text.fold "." = "." := by decide
    have parts : n.full = n.set ++ "." ++ n.base := by simp [full, hasSet, set]
    rw [parts, Text.fold_append, Text.fold_append, fold_of_lower lower, fold_of_lower lower', dot]

/-- Only one name is `cql.serverchoice` in any case, as names with a set are in lower case. -/
theorem WellFormed.sameFold_full (h : n.WellFormed) :
    Text.sameFold n.full serverChoiceField = true ↔ n = choice := by
  have fold : Text.fold serverChoiceField = serverChoiceField := by decide
  rw [Text.sameFold, beq_iff_eq, fold]
  constructor
  · intro same
    by_cases set : n.set = ""
    · have free : '.' ∉ n.base.toList := by
        obtain ⟨-, free⟩ | ⟨some_set, -⟩ := h
        · exact free
        · exact absurd set some_set
      -- folding makes no dots, and a name without a set has none
      have dot : '.' ∈ (Text.fold n.full).toList := by
        rw [same]
        decide
      have full : n.full = n.base := by simp [full, hasSet, set]
      rw [full, Text.fold, String.toList_ofList] at dot
      obtain ⟨x, mem, lowered⟩ := List.mem_map.1 dot
      rw [recases_toLower.eq_iff isAlphanumeric_dot] at lowered
      exact absurd (lowered ▸ mem) free
    · have split := h.splitName_full set
      rw [← h.fold_full set, same] at split
      have own : splitName serverChoiceField = .ok choice := by rfl
      exact Except.ok.inj (split.symm.trans own)
  · rintro rfl
    decide

end QualifiedName

open QualifiedName (choice)

/-- Whether the field of an index is left out in a scope, where no names of fields are known. -/
def Scope.Omits (scope : Scope) (n : QualifiedName) : Prop :=
  FieldNames.fieldOf {} (scope.resolve n.set) n = none

theorem FieldNames.fieldOf_unknown (set : Option String) (n : QualifiedName) :
    fieldOf {} set n =
      if set = some ContextSet.cql ∧ n.base = serverChoice ∨
        Text.sameFold n.full serverChoiceField = true then none else some n.full := by
  simp only [fieldOf, Dictionary.get?_empty, Option.getD_none, ite_self]
  by_cases own : set = some ContextSet.cql ∧ n.base = serverChoice <;> simp [own]

theorem Scope.omits_iff {scope : Scope} (formed : n.WellFormed) :
    scope.Omits n ↔
      scope.resolve n.set = some ContextSet.cql ∧ n.base = serverChoice ∨ n = choice := by
  rw [Omits, FieldNames.fieldOf_unknown, ← formed.sameFold_full]
  simp only [ite_eq_left_iff, reduceCtorEq, imp_false, not_not]

/-- In the language's own set it is names without a set that have to be in lower case. -/
theorem Scope.omits_of_own {scope : Scope} (formed : n.WellFormed)
    (own : scope.resolve n.set = some ContextSet.cql)
    (named : Text.sameFold n.base serverChoice = true) :
    scope.Omits n ↔ (n.set = "" → n.base = serverChoice) := by
  have fold : Text.fold serverChoice = serverChoice := by decide
  rw [omits_iff formed, and_iff_right own]
  obtain ⟨none, -⟩ | ⟨some_set, -, -, lower⟩ := formed
  · have other : n ≠ choice := by
      rintro rfl
      exact absurd none (by decide)
    simp [none, other]
  · rw [Text.sameFold, beq_iff_eq, fold, fold_of_lower lower] at named
    simp [named, some_set]

/-- A name without a set is as it is written. -/
theorem eq_of_splitName (split : splitName s = .ok n) (none : n.set = "") : n = ⟨"", s⟩ := by
  obtain ⟨-, rfl⟩ | ⟨set, base, -, some_char, -, -, rfl⟩ := splitName_eq_ok.1 split
  · rfl
  · exact absurd none (lowercase_ne_empty (by simpa using some_char))

/-- Names with a set are the same in any case. -/
theorem splitName_congr {n' : QualifiedName} (same : Text.sameFold s t = true)
    (split : splitName s = .ok n) (split' : splitName t = .ok n') :
    n.set = n'.set ∧ (n.set ≠ "" → n = n') := by
  have keeps (m : QualifiedName) : (m.recase Char.toLower).set = m.set := by
    rw [QualifiedName.recase]
    split <;> rfl
  have equal : n.recase Char.toLower = n'.recase Char.toLower := by
    have folded := recases_toLower.splitName_recase s
    have folded' := recases_toLower.splitName_recase t
    rw [split] at folded
    rw [split'] at folded'
    have texts : Text.fold s = Text.fold t := beq_iff_eq.1 same
    exact Except.ok.inj (folded.symm.trans ((congrArg splitName texts).trans folded'))
  have sets : n.set = n'.set := by rw [← keeps n, equal, keeps]
  refine ⟨sets, fun some_set => ?_⟩
  rwa [QualifiedName.recase, QualifiedName.recase, if_neg some_set, if_neg (sets ▸ some_set)] at equal

/-- The case of an index counts where it has no set and names without one are in the language's own
    set, and only in that it is `serverchoice` or not. -/
theorem Scope.omits_congr {scope : Scope} {n' : QualifiedName} (same : Text.sameFold s t = true)
    (split : splitName s = .ok n) (split' : splitName t = .ok n') :
    (scope.Omits n ↔ scope.Omits n') ↔ (n.set = "" →
      scope.resolve "" = some ContextSet.cql → (s = serverChoice ↔ t = serverChoice)) := by
  obtain ⟨sets, equal⟩ := splitName_congr same split split'
  by_cases none : n.set = ""
  · have omits {u : String} (formed : QualifiedName.WellFormed ⟨"", u⟩) :
        scope.Omits ⟨"", u⟩ ↔ scope.resolve "" = some ContextSet.cql ∧ u = serverChoice := by
      have other : (⟨"", u⟩ : QualifiedName) ≠ choice := by
        simp [choice, cqlName_ne_empty.symm]
      rw [omits_iff formed, or_iff_left other]
    have formed := wellFormed_of_splitName split
    have formed' := wellFormed_of_splitName split'
    rw [eq_of_splitName split none] at formed ⊢
    rw [eq_of_splitName split' (sets.symm.trans none)] at formed' ⊢
    rw [omits formed, omits formed', and_congr_right_iff]
    simp
  · rw [equal none]
    simp [equal none ▸ none]

/-- A clause whose index is `serverchoice` in the language's own set, in any case, is searched for
    without a field unless it is written without a set and in another case, which is its field then.
    So whether an index has a field depends on its case in that way only. -/
theorem exists_fragment_of_choice (read : parse rules source = .ok q) (mem : p ∈ q.places)
    (here : p.node = .clause info c) :
    (∀ text, q.compile {} = .ok text →
      p.scope.resolve c.index.name.set = some ContextSet.cql →
      Text.sameFold c.index.name.base serverChoice = true →
      ∃ fragment, c.compile {} p.scope = .ok fragment ∧ fragment.toList <:+: text.toList ∧
        c.relation.compile (if c.index.name.set = "" ∧ c.index.name.base ≠ serverChoice then
          c.index.name.base ++ ":" else "") c.term = .ok fragment) ∧
    ∀ s t n, splitName s = .ok c.index.name → splitName t = .ok n → Text.sameFold s t = true →
      ((p.scope.Omits c.index.name ↔ p.scope.Omits n) ↔ (c.index.name.set = "" →
        p.scope.resolve "" = some ContextSet.cql → (s = serverChoice ↔ t = serverChoice))) := by
  refine ⟨fun text compiled own named => ?_, fun s t n split split' same =>
    Scope.omits_congr same split split'⟩
  obtain ⟨fragment, found, within, searched⟩ := exists_fragment_compile read compiled mem here
  have formed := ((root_wellFormed read).clauses c (Node.mem_clauses_of_places mem here)).1.1
  have omits := Scope.omits_of_own formed own named
  refine ⟨fragment, found, within, searched ▸ congrArg (c.relation.compile · c.term) ?_⟩
  -- A name without a set keeps its capitals and is compared as it is written; with a set it is
  -- lower-cased.
  by_cases capital : c.index.name.set = "" ∧ c.index.name.base ≠ serverChoice
  · obtain ⟨none, other⟩ := capital
    have full : c.index.name.full = c.index.name.base := by
      simp [QualifiedName.full, QualifiedName.hasSet, none]
    have field : FieldNames.fieldOf {} (p.scope.resolve c.index.name.set) c.index.name =
        some c.index.name.full := by
      have stays : ¬p.scope.Omits c.index.name := fun h => other (omits.1 h none)
      rw [Scope.Omits, FieldNames.fieldOf_unknown] at stays
      rw [FieldNames.fieldOf_unknown, if_neg (by simpa using stays)]
    rw [if_pos ⟨none, other⟩, field, full]
    rfl
  · have field := omits.2 fun none => by simpa [none] using capital
    rw [if_neg capital, field]
    rfl

/-- A name without a set that is written in lower case. -/
theorem exists_fragment_of_choice_unnamed : ∃ q p info c,
    parse {} ">\"info:srw/cql-context-set/1/cql-v1.1\" serverchoice any \"a b\"" = .ok q ∧
      q.compile {} = .ok "(a OR b)" ∧ p ∈ q.places ∧ p.node = .clause info c ∧
      p.scope.resolve c.index.name.set = some ContextSet.cql ∧
      Text.sameFold c.index.name.base serverChoice = true ∧
      c.relation.compile "" c.term = c.compile {} p.scope ∧
      splitName "serverchoice" = .ok c.index.name ∧
      splitName "ServerChoice" = .ok ⟨"", "ServerChoice"⟩ ∧
      ¬(p.scope.Omits c.index.name ↔ p.scope.Omits ⟨"", "ServerChoice"⟩) := by
  obtain ⟨q, p, info, c, read, compiled, mem, here, seen⟩ := exists_clause_of_compile {}
    ">\"info:srw/cql-context-set/1/cql-v1.1\" serverchoice any \"a b\"" {} "(a OR b)"
    (fun p c =>
      c.index.name = ⟨"", "serverchoice"⟩ && p.scope.resolve "" == some ContextSet.cql)
    (by decide +kernel)
  simp only [Bool.and_eq_true, beq_iff_eq, decide_eq_true_eq] at seen
  obtain ⟨name, own⟩ := seen
  obtain ⟨searched, alike⟩ := exists_fragment_of_choice read mem here
  rw [name] at searched alike
  have named : Text.sameFold "serverchoice" serverChoice = true := by decide
  have split : splitName "serverchoice" = .ok ⟨"", "serverchoice"⟩ := by rfl
  have split' : splitName "ServerChoice" = .ok ⟨"", "ServerChoice"⟩ := by rfl
  obtain ⟨fragment, found, -, compiles⟩ := searched _ compiled own named
  have lower : ¬((⟨"", "serverchoice"⟩ : QualifiedName).set = "" ∧ "serverchoice" ≠ serverChoice) := by
    decide
  rw [if_neg lower] at compiles
  refine ⟨q, p, info, c, read, compiled, mem, here, by rwa [name], by rwa [name],
    compiles.trans found.symm, by rwa [name], split', ?_⟩
  rw [name, alike _ _ _ split split' (by decide)]
  intro same
  exact absurd (same rfl own) (by decide)

/-- Without a set the same name is a field as soon as a letter is a capital. -/
theorem qualified_of_capital : ∃ q p info c,
    parse {} ">\"info:srw/cql-context-set/1/cql-v1.1\" serverChoice = cat" = .ok q ∧
      q.compile {} = .ok "serverChoice:cat" ∧ p ∈ q.places ∧ p.node = .clause info c ∧
      p.scope.resolve c.index.name.set = some ContextSet.cql ∧
      Text.sameFold c.index.name.base serverChoice = true ∧
      c.compile {} p.scope = .ok "serverChoice:cat" ∧ c.relation.compile "" c.term = .ok "cat" ∧
      ∃ q', parse {} ">\"info:srw/cql-context-set/1/cql-v1.1\" serverchoice = cat" = .ok q' ∧
        q'.compile {} = .ok "cat" := by
  obtain ⟨q, p, info, c, read, compiled, mem, here, seen⟩ := exists_clause_of_compile {}
    ">\"info:srw/cql-context-set/1/cql-v1.1\" serverChoice = cat" {} "serverChoice:cat"
    (fun p c =>
      p.scope.resolve c.index.name.set == some ContextSet.cql &&
        Text.sameFold c.index.name.base serverChoice &&
        (c.compile {} p.scope).toOption == some "serverChoice:cat" &&
        (c.relation.compile "" c.term).toOption == some "cat")
    (by decide +kernel)
  simp only [Bool.and_eq_true, beq_iff_eq] at seen
  obtain ⟨⟨⟨own, named⟩, qualified⟩, unqualified⟩ := seen
  obtain ⟨q', read', lower⟩ := exists_eq_ok_of_any
    (x := parse {} ">\"info:srw/cql-context-set/1/cql-v1.1\" serverchoice = cat")
    (p := fun q => (q.compile {}).toOption == some "cat") (by decide +kernel)
  exact ⟨q, p, info, c, read, compiled, mem, here, own, named,
    eq_ok_of_toOption qualified, eq_ok_of_toOption unqualified, q', read',
    eq_ok_of_toOption (beq_iff_eq.1 lower)⟩

end ContextualQuery
