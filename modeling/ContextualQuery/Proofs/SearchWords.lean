import ContextualQuery.Proofs.Compilability

/-! The searches for the words of a term.

    A relation `all` or `any` asks for each word of a phrase. The words are split off while the phrase
    still has its quotes, which are then taken from the first and from the last of them.

            " spam   hamm"    ──split──▶    "   spam   hamm"    ──quotes off──▶    spam   hamm

    What comes out are the words between the quotes: a piece that was a quote and nothing else is left
    out, and a quote that belongs to the text stays (`Term.words_quote`). -/

namespace ContextualQuery

open Lexemes Reading Unicode

variable {rules : Rules} {cs : List Char}

/-! ### Splitting at white space -/

namespace Text

/-- Words are split at white space. -/
theorem words_append_blank {b : Char} (blank : isBlank b = true) (x y : List Char) :
    words (String.ofList (x ++ b :: y)) = words (String.ofList x) ++ words (String.ofList y) := by
  simp only [words, String.toList_ofList]
  rw [List.splitOnP_append_cons x y blank, List.filter_append, List.map_append]

/-- A text without white space is one word, unless it is empty. -/
theorem words_of_solid (solid : ∀ c ∈ cs, isBlank c = false) :
    words (String.ofList cs) = [String.ofList cs].filter (!·.isEmpty) := by
  rw [words, String.toList_ofList, List.splitOnP_eq_singleton solid]
  cases cs <;> simp

theorem filter_words (s : String) : (words s).filter (!·.isEmpty) = words s := by
  refine List.filter_eq_self.2 fun w mem => ?_
  obtain ⟨piece, kept, rfl⟩ := List.mem_map.1 mem
  simpa using (List.mem_filter.1 kept).2

theorem exists_last_blank (h : ∃ c ∈ cs, isBlank c = true) :
    ∃ x b y, cs = x ++ b :: y ∧ isBlank b = true ∧ ∀ c ∈ y, isBlank c = false := by
  induction cs with
  | nil => simp at h
  | cons c cs ih =>
    by_cases later : ∃ d ∈ cs, isBlank d = true
    · obtain ⟨x, b, y, rfl, blank, solid⟩ := ih later
      exact ⟨c :: x, b, y, rfl, blank, solid⟩
    · obtain ⟨d, mem, blank⟩ := h
      have solid : ∀ c ∈ cs, isBlank c = false := by simpa using later
      rcases List.mem_cons.1 mem with rfl | mem
      · exact ⟨[], d, cs, rfl, blank, solid⟩
      · exact absurd ⟨d, mem, blank⟩ later

/-- A quote in front of a text goes to its first word, or is a word itself. -/
theorem exists_words_cons_quote (x : List Char) :
    ∃ first rest, words (String.ofList ('"' :: x)) = String.ofList ('"' :: first) :: rest ∧
      words (String.ofList x) = (String.ofList first :: rest).filter (!·.isEmpty) := by
  obtain ⟨first, pieces, split⟩ := List.exists_cons_of_ne_nil (List.splitOnP_ne_nil isBlank x)
  refine ⟨first, (pieces.filter (!·.isEmpty)).map String.ofList, ?_, ?_⟩
  · rw [words, String.toList_ofList, List.splitOnP_cons_eq_if_modifyHead, if_neg (by decide), split]
    rfl
  · have rest := filter_words (String.ofList x)
    rw [words, String.toList_ofList, split] at rest ⊢
    cases first with
    | nil => simpa using rest.symm
    | cons c first => simpa using rest.symm

end Text

/-! ### Quotes -/

theorem dropOpenQuote_ofList (cs : List Char) :
    dropOpenQuote (String.ofList ('"' :: cs)) = String.ofList cs := by
  rw [dropOpenQuote, String.toList_ofList]
  rfl

theorem dropCloseQuote_ofList (cs : List Char) :
    dropCloseQuote (String.ofList (cs ++ ['"'])) = String.ofList cs := by
  rw [dropCloseQuote, String.toList_ofList]
  simp

theorem mapLast_append (f : String → String) (ws : List String) (w : String) :
    mapLast f (ws ++ [w]) = ws ++ [f w] := by
  induction ws with
  | nil => rfl
  | cons v ws ih =>
    rw [List.cons_append, mapLast.eq_3 _ _ _ (by simp), ih, List.cons_append]

namespace Term

theorem words_of_few {t : Term} (few : (Text.words t.text).length < 2) : t.words = [] := by
  rw [words]
  split
  next split =>
    rw [split, List.length_cons, List.length_cons] at few
    omega
  next => rfl

theorem words_of_split {t : Term} {first last : String} {rest : List String}
    (split : Text.words t.text = first :: (rest ++ [last])) :
    t.words = (dropOpenQuote first :: (rest ++ [dropCloseQuote last])).filter (!·.isEmpty) := by
  rw [words, split]
  cases rest with
  | nil => rfl
  | cons second rest =>
    change (dropOpenQuote first :: mapLast dropCloseQuote (second :: rest ++ [last])).filter _ = _
    rw [mapLast_append]

/-- The words of a phrase with white space in it are those between its quotes. -/
theorem words_quote {body : String} (parted : ∃ c ∈ body.toList, isBlank c = true) :
    words ⟨Text.quote body⟩ = Text.words body := by
  obtain ⟨x, b, y, chars, blank, solid⟩ := Text.exists_last_blank parted
  obtain ⟨first, rest, front, inner⟩ := Text.exists_words_cons_quote x
  have text : body = String.ofList (x ++ b :: y) := by rw [← chars, String.ofList_toList]
  have quoted : Text.quote body = String.ofList (('"' :: x) ++ b :: (y ++ ['"'])) := by
    apply String.toList_injective
    simp [text]
  have solid' : ∀ c ∈ y ++ ['"'], isBlank c = false :=
    List.forall_mem_append.2 ⟨solid, by simp; decide⟩
  have split : Text.words (Text.quote body) =
      String.ofList ('"' :: first) :: (rest ++ [String.ofList (y ++ ['"'])]) := by
    rw [quoted, Text.words_append_blank blank, front, Text.words_of_solid solid']
    simp
  rw [words_of_split (t := ⟨Text.quote body⟩) split, dropOpenQuote_ofList, dropCloseQuote_ofList, text,
    Text.words_append_blank blank, inner, Text.words_of_solid solid, ← List.filter_append,
    List.cons_append]

/-- A term of several pieces is a phrase, and its words are those between the quotes. -/
theorem quote_of_several {t : Term} (spelled : TermSpelling t.text.toList)
    (several : 2 ≤ (Text.words t.text).length) :
    t.text = Text.quote t.unquoted ∧ t.words = Text.words t.unquoted := by
  have parted : ∃ c ∈ t.text.toList, isBlank c = true := by
    by_contra solid
    have one := Text.words_of_solid (show ∀ c ∈ t.text.toList, isBlank c = false by simpa using solid)
    rw [String.ofList_toList] at one
    have few := List.length_filter_le (!·.isEmpty) [t.text]
    rw [← one, List.length_singleton] at few
    omega
  generalize whole : t.text.toList = cs at spelled parted
  cases spelled with
  | bare plain _ =>
    obtain ⟨c, mem, blank⟩ := parted
    have here := plain c mem
    simp [isPlain, blank] at here
  | @quoted body _ =>
    obtain ⟨text⟩ := t
    obtain rfl := Text.eq_quote whole
    have unquoted : Term.unquoted ⟨Text.quote (String.ofList body)⟩ = String.ofList body := by
      rw [Term.unquoted, Text.unquote_quote]
    have inside : ∃ c ∈ (String.ofList body).toList, isBlank c = true := by
      obtain ⟨c, mem, blank⟩ := parted
      have other : c ≠ '"' := by rintro rfl; revert blank; decide
      exact ⟨c, by simpa [other] using mem, blank⟩
    rw [unquoted]
    exact ⟨rfl, words_quote inside⟩

end Term

/-! ### Clauses -/

theorem eachWord_of_words {t : Term} {ws : List String} (words : t.words = ws)
    (qualifier joint : String) :
    (ws = [] → eachWord qualifier t joint = qualifier ++ t.text) ∧
      (∀ w, ws = [w] → eachWord qualifier t joint = qualifier ++ w) ∧
      (2 ≤ ws.length → eachWord qualifier t joint =
        "(" ++ (" " ++ joint ++ " ").intercalate (ws.map (qualifier ++ ·)) ++ ")") := by
  refine ⟨?_, ?_, ?_⟩
  · rintro rfl
    rw [eachWord, words, List.map_nil]
  · rintro w rfl
    rw [eachWord, words, List.map_singleton]
  · intro several
    match ws, several with
    | first :: second :: rest, _ => rw [eachWord, words, List.map_cons, List.map_cons]

theorem Node.mem_clauses_of_places {t : Node} {parent : Option Nat} {around : Scope} {p : Place}
    (mem : p ∈ t.places parent around) {info : NodeInfo} {c : Clause}
    (here : p.node = .clause info c) : c ∈ t.clauses := by
  induction t generalizing parent around with
  | clause info' c' =>
    obtain rfl := List.mem_singleton.1 mem
    obtain ⟨-, rfl⟩ := Node.clause.inj here
    exact List.mem_singleton_self _
  | triple info' left boolean right ih ih' =>
    rw [places, List.mem_cons, List.mem_append] at mem
    obtain rfl | mem | mem := mem
    · exact absurd here (by simp)
    · exact List.mem_append_left _ (ih mem)
    · exact List.mem_append_right _ (ih' mem)

/-- A clause with `all` or `any` searches for its term as it stands if the term is one piece. Otherwise
    the term is a phrase, and the clause searches for each of the words between the quotes. -/
theorem compile_of_parse_words {source joint : String} {q : Query} {p : Place} {info : NodeInfo}
    {c : Clause} (usual : rules.wordChars = defaultWordChars) (read : parse rules source = .ok q)
    (mem : p ∈ q.places) (here : p.node = .clause info c)
    (asks : c.relation.kind = .all ∧ joint = "AND" ∨ c.relation.kind = .any ∧ joint = "OR")
    (unrefined : c.relation.modifiers = []) (names : FieldNames) :
    let field := qualifierOf (names.fieldOf (p.scope.resolve c.index.name.set) c.index.name)
    let ws := Text.words c.term.unquoted
    ((Text.words c.term.text).length < 2 →
        c.compile names p.scope = .ok (field ++ c.term.text)) ∧
      (2 ≤ (Text.words c.term.text).length →
        c.term.text = Text.quote c.term.unquoted ∧
          (ws = [] → c.compile names p.scope = .ok (field ++ c.term.text)) ∧
          (∀ w, ws = [w] → c.compile names p.scope = .ok (field ++ w)) ∧
          (2 ≤ ws.length → c.compile names p.scope =
            .ok ("(" ++ (" " ++ joint ++ " ").intercalate (ws.map (field ++ ·)) ++ ")"))) := by
  intro field ws
  have clause : c ∈ q.clauses := Node.mem_clauses_of_places mem here
  have compiled : c.compile names p.scope = .ok (eachWord field c.term joint) := by
    rw [((root_wellFormed read).clauses c clause).compile_eq unrefined, Relation.compile]
    obtain ⟨all, rfl⟩ | ⟨any, rfl⟩ := asks
    · rw [all]
    · rw [any]
  rw [compiled]
  constructor
  · intro few
    rw [(eachWord_of_words (Term.words_of_few few) field joint).1 rfl]
  · intro several
    obtain ⟨quoted, words⟩ := Term.quote_of_several (termSpelling_of_parse usual read c clause) several
    obtain ⟨none, one, more⟩ := eachWord_of_words words field joint
    exact ⟨quoted, fun h => by rw [none h], fun w h => by rw [one w h], fun h => by rw [more h]⟩

/-- The first piece of this phrase is a quote and nothing else, and the last piece ends in two, of
    which one is a quote of the text. -/
theorem compile_of_parse_words_phrase : ∃ q, ∃ p ∈ q.places, ∃ info c,
    parse {} "title any \" spam\u3000hamm\\\"\"" = .ok q ∧ p.node = .clause info c ∧
      c.relation.kind = .any ∧ c.relation.modifiers = [] ∧
      c.compile {} p.scope = .ok "(title:spam OR title:hamm\\\")" := by
  obtain ⟨q, read⟩ := exists_eq_ok (show (parse {}
    "title any \" spam\u3000hamm\\\"\"").isOk = true by decide +kernel)
  have holds {P : Query → Bool}
      (h : (parse {} "title any \" spam\u3000hamm\\\"\"").toOption.any P = true) : P q = true := by
    rwa [read] at h
  have leaf := holds (P := fun q => q.root matches .clause ..) (by decide +kernel)
  have any := holds (P := fun q => q.clauses.all (·.relation.kind = .any)) (by decide +kernel)
  have bare := holds (P := fun q => q.clauses.all (·.relation.modifiers.isEmpty)) (by decide +kernel)
  have term := holds (P := fun q => q.clauses.all (·.term.text = "\" spam\u3000hamm\\\"\""))
    (by decide +kernel)
  have field := holds (P := fun q => q.clauses.all fun c => qualifierOf (FieldNames.fieldOf {}
    ((Place.scope ⟨q.root, none, q.scope⟩).resolve c.index.name.set) c.index.name) = "title:")
    (by decide +kernel)
  obtain ⟨source, root, size, defaults⟩ := q
  cases root with
  | triple info l b r => exact absurd leaf (by simp)
  | clause info c =>
    simp only [Query.clauses, Query.scope, Node.clauses, List.all_cons, List.all_nil, Bool.and_true,
      decide_eq_true_eq, List.isEmpty_iff] at any bare term field
    have mem : (⟨.clause info c, none, { defaults }⟩ : Place) ∈
        Query.places ⟨source, .clause info c, size, defaults⟩ := List.mem_singleton_self _
    refine ⟨_, _, mem, info, c, read, rfl, any, bare, ?_⟩
    have compiled := (compile_of_parse_words rfl read mem rfl (.inr ⟨any, rfl⟩) bare {}).2
    rw [Term.unquoted, term] at compiled
    obtain ⟨-, -, -, several⟩ := compiled (by decide +kernel)
    have named := several (by decide +kernel)
    rw [of_decide_eq_true field] at named
    rw [named]
    decide +kernel

end ContextualQuery
