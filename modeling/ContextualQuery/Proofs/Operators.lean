import ContextualQuery.Proofs.RoundTrip.Trees

/-! Relations, booleans and sort keys by themselves.

    What is written for an operator of a query is read as the same operator wherever one can stand,
    by itself and without the rest of the query:

        title  any/fuzzy             fish
        fish   prox/distance<3       chips
        fish   sortBy                title/descending

    That takes no more than that its names are words once more (`parse_operators`). They are not where
    a relation is a keyword without its set, where the name of a modifier is written between quotes
    and where the lower case of a letter is more than a letter. -/

namespace ContextualQuery

open Lexemes Reading Unicode

variable {rules : Rules} {T : Token → Prop} {punctuation s i w : String} {q : Query} {t : Node}

/-! ### Operators of a tree -/

/-- The booleans of a tree. -/
def Node.booleans : Node → List Boolean
  | .clause _ _ => []
  | .triple _ left boolean right => left.booleans ++ boolean :: right.booleans

/-- The sort keys of a tree. -/
def Node.keys : Node → List Index
  | .clause info _ => info.sortKeys
  | .triple info left _ right => info.sortKeys ++ (left.keys ++ right.keys)

theorem Node.Sourced.clause (h : t.Sourced T rules) :
    ∀ c ∈ t.clauses, ContextualQuery.Sourced T (ClauseSpelling rules) c := by
  induction t with
  | clause info c => simpa [clauses] using h.2
  | triple info left b right ih ih' =>
    obtain ⟨-, hl, -, hr⟩ := h
    exact List.forall_mem_append.2 ⟨ih hl, ih' hr⟩

theorem Node.Sourced.boolean (h : t.Sourced T rules) :
    ∀ b ∈ t.booleans, ContextualQuery.Sourced T BooleanSpelling b := by
  induction t with
  | clause info c => simp [booleans]
  | triple info left b right ih ih' =>
    obtain ⟨-, hl, hb, hr⟩ := h
    exact List.forall_mem_append.2 ⟨ih hl, List.forall_mem_cons.2 ⟨hb, ih' hr⟩⟩

theorem Node.Sourced.key (h : t.Sourced T rules) :
    ∀ k ∈ t.keys, ContextualQuery.Sourced T (KeySpelling rules) k := by
  induction t with
  | clause info c => exact h.1.2
  | triple info left b right ih ih' =>
    obtain ⟨here, hl, -, hr⟩ := h
    exact List.forall_mem_append.2 ⟨here.2, List.forall_mem_append.2 ⟨ih hl, ih' hr⟩⟩

/-! ### Plain words -/

/-- Whether a text is a word of letters and digits. -/
def Alphanumeric (s : String) : Prop := s ≠ "" ∧ ∀ c ∈ s.toList, isAlphanumeric c = true

namespace Alphanumeric

theorem alone [Harmless punctuation] (h : Alphanumeric s) : (Token.word s).Alone punctuation :=
  Token.alone_word h.1 (escaped_of_isAlphanumeric h.2)

theorem not_mem {c : Char} (h : Alphanumeric s) (other : isAlphanumeric c = false) :
    c ∉ s.toList :=
  fun mem => absurd (h.2 c mem) (by simp [other])

theorem splitName_eq (h : Alphanumeric s) : splitName s = .ok ⟨"", s⟩ :=
  splitName_eq_ok.2 (.inl ⟨h.not_mem (by decide), rfl⟩)

theorem termOf_eq (h : Alphanumeric s) : termOf {} (some (.word s)) = .ok ⟨s⟩ := by
  have anchors : s.toList.all (· == '^') = false := by
    cases chars : s.toList with
    | nil => exact absurd (String.toList_eq_nil_iff.1 chars) h.1
    | cons c cs =>
      have other : c ≠ '^' := by
        rintro rfl
        exact h.not_mem (c := '^') (by decide) (by simp [chars])
      simp [other]
  have special := escapesAreSpecial_of_not_mem (h.not_mem isAlphanumeric_backslash)
  simp [termOf, checkTerm, anchors, special]

end Alphanumeric

/-! ### Operators between plain words -/

/-- A chain without declarations in front of it is a query. -/
theorem parse_of_chain {us : List Token} {p : Phrase} (lexed : Lexes defaultWordChars s.toList us)
    (front : us.head? ≠ some (.comparison .gt)) (chain : Spells {} .chain us none p)
    (fits : p.Fits {} 255 [[]]) : parse {} s = .ok ⟨s, p.build 0, p.size, .empty⟩ := by
  have query : Spells {} .query us none (.scope [] p) :=
    .query (u := []) (no_declarations (by rwa [ahead_none])) chain
  have same : (Phrase.scope [] p).build 0 = p.build 0 := Node.declare_empty _
  rw [parse_of_spells rfl lexed query fits.undeclared, same]
  rfl

theorem parse_relation_text {r : Relation}
    (sourced : Sourced (Token.Lexed defaultWordChars) RelationSpelling r)
    (worded : r.Worded defaultWordChars) (index : Alphanumeric i) (term : Alphanumeric w) :
    parse {} (i ++ " " ++ r.text ++ " " ++ w) = .ok
      { source := i ++ " " ++ r.text ++ " " ++ w
        root := .clause { id := 0, height := 1 }
          { index := { name := ⟨"", i⟩ }, relation := r, term := ⟨w⟩ }
        size := 1
        defaults := .empty } := by
  obtain ⟨u, prints, head, spells⟩ := legible_relation sourced worded
  have lexed := ((index.alone.prints.spaced prints).spaced term.alone.prints).lexes
  have goesOn : ∀ x ∈ u.head?, endsTerm (some x) = false := fun x hx => by
    rw [hx] at head
    simpa using head
  have clause : ClauseSpelling {} (.word i :: (u ++ [.word w])) none
      { index := { name := ⟨"", i⟩ }, relation := r, term := ⟨w⟩ } :=
    .full (.word index.splitName_eq) goesOn (spells _ rfl) term.termOf_eq
  have chain : Spells {} .chain ((.word i :: (u ++ [.word w])) ++ []) none _ :=
    .chain (.clause clause) (.done rfl) rfl
  exact parse_of_chain (p := .clause _) lexed (by simp) (by simpa using chain) trivial

theorem parse_boolean_text {b : Boolean}
    (sourced : Sourced (Token.Lexed defaultWordChars) BooleanSpelling b)
    (worded : b.Worded defaultWordChars) (left : Alphanumeric i) (right : Alphanumeric w) :
    parse {} (i ++ " " ++ b.text ++ " " ++ w) = .ok
      { source := i ++ " " ++ b.text ++ " " ++ w
        root := .triple { id := 2, height := 2 } (.clause { id := 0, height := 1 } (.ofTerm ⟨i⟩)) b
          (.clause { id := 1, height := 1 } (.ofTerm ⟨w⟩))
        size := 3
        defaults := .empty } := by
  obtain ⟨u, prints, head, spells⟩ := legible_boolean sourced worded
  have lexed := ((left.alone.prints.spaced prints).spaced right.alone.prints).lexes
  -- The first operand ends where the boolean starts.
  have ends : endsTerm (ahead (u ++ ([.word w] ++ [])) none) = true := by
    cases u with
    | nil => simp at head
    | cons t u =>
      have joins : t.isBoolean = true := head
      simp [endsTerm, joins]
  have links : Spells {} (.links (.clause (.ofTerm ⟨i⟩))) (u ++ ([.word w] ++ [])) none
      (.join (.clause (.ofTerm ⟨i⟩)) b (.clause (.ofTerm ⟨w⟩))) :=
    .link (spells _ rfl) (.clause (.alone rfl right.termOf_eq)) (.done rfl)
  have chain := Spells.chain (.clause (.alone ends left.termOf_eq)) links rfl
  have low : 2 ≤ ({} : Rules).maxDepth := by decide
  exact parse_of_chain (p := .join (.clause _) b (.clause _)) lexed (by simp) (by simpa using chain)
    ⟨trivial, trivial, low⟩

theorem parse_key_text {k : Index}
    (sourced : Sourced (Token.Lexed defaultWordChars) (KeySpelling {}) k)
    (worded : k.WordedLast defaultWordChars) (term : Alphanumeric i) :
    parse {} (i ++ " sortBy " ++ k.text) = .ok
      { source := i ++ " sortBy " ++ k.text
        root := .clause { id := 0, height := 1, sortKeys := [k] } (.ofTerm ⟨i⟩)
        size := 1
        defaults := .empty } := by
  obtain ⟨u, lexes, -, spelled⟩ := legible_key_last rfl sourced worded
  have sortBy : Alphanumeric "sortBy" := ⟨by decide, List.all_eq_true.1 (by decide)⟩
  have lexed := (term.alone.prints.spaced sortBy.alone.prints).lexes_spaced lexes
  have keys : KeysSpelling {} (u ++ []) none [k] := .cons spelled (.nil rfl)
  have chain := Spells.sorted (v := []) (t := .word "sortBy")
    (.clause (.alone (by decide) term.termOf_eq)) (.done (by decide)) (by decide) (by simp) keys
  have text : i ++ " sortBy " ++ k.text = i ++ " " ++ "sortBy" ++ " " ++ k.text := by
    simp only [String.append_assoc]
    rfl
  rw [text]
  exact parse_of_chain (p := .sort (.clause _) [k]) lexed (by simp) (by simpa using chain) trivial

/-! ### Operators of a query -/

/-- What is written for an operator of a query is read as the same operator between plain words,
    where each of its names is written as a word and a relation as no keyword. -/
theorem parse_operators (read : parse {} s = .ok q) (plain : Alphanumeric i)
    (plain' : Alphanumeric w) :
    (∀ c ∈ q.clauses, c.relation.Worded defaultWordChars →
      ∃ r, parse {} (i ++ " " ++ c.relation.text ++ " " ++ w) = .ok r ∧
        r.root = .clause { id := 0, height := 1 }
          { index := { name := ⟨"", i⟩ }, relation := c.relation, term := ⟨w⟩ }) ∧
    (∀ b ∈ q.root.booleans, b.Worded defaultWordChars →
      ∃ r, parse {} (i ++ " " ++ b.text ++ " " ++ w) = .ok r ∧
        r.root = .triple { id := 2, height := 2 }
          (.clause { id := 0, height := 1 } (.ofTerm ⟨i⟩)) b
          (.clause { id := 1, height := 1 } (.ofTerm ⟨w⟩))) ∧
    (∀ k ∈ q.root.keys, k.WordedLast defaultWordChars →
      ∃ r, parse {} (i ++ " sortBy " ++ k.text) = .ok r ∧
        r.root = .clause { id := 0, height := 1, sortKeys := [k] } (.ofTerm ⟨i⟩)) := by
  obtain ⟨ts, p, lexed, spelled, -, rfl⟩ := parse_eq_ok.1 read
  have sourced := (spelled.sourced (ofText_eq.1 lexed).taken (by simp)).build 0
  refine ⟨fun c hc worded => ?_, fun b hb worded => ?_, fun k hk worded => ?_⟩
  · have related := Clause.sourced_relation ⟨['='], [], .eq⟩ (sourced.clause c hc)
    exact ⟨_, parse_relation_text related worded plain plain', rfl⟩
  · exact ⟨_, parse_boolean_text (sourced.boolean b hb) worded plain plain', rfl⟩
  · exact ⟨_, parse_key_text (sourced.key k hk) worded plain, rfl⟩

/-- Escaped characters in names stay where they are, and a set is left out where it may be. -/
theorem parse_operators_escaped : ∃ q,
    parse {} "a CQL.b\\=c/d.e>\"f g\" h Prox/i<3 j sortby \"k l\"/m" = .ok q ∧
      q.clauses.map (·.relation.text) = ["b\\=c/d.e>\"f g\"", "="] ∧
      q.root.booleans.map Boolean.text = ["prox/i<3"] ∧
      q.root.keys.map Index.text = ["\"k l\"/m"] ∧
      (∀ c ∈ q.clauses, ∃ r, parse {} ("x" ++ " " ++ c.relation.text ++ " " ++ "y") = .ok r ∧
        r.root = .clause { id := 0, height := 1 }
          { index := { name := ⟨"", "x"⟩ }, relation := c.relation, term := ⟨"y"⟩ }) ∧
      (∀ b ∈ q.root.booleans, ∃ r, parse {} ("x" ++ " " ++ b.text ++ " " ++ "y") = .ok r ∧
        r.root = .triple { id := 2, height := 2 }
          (.clause { id := 0, height := 1 } (.ofTerm ⟨"x"⟩)) b
          (.clause { id := 1, height := 1 } (.ofTerm ⟨"y"⟩))) ∧
      ∀ k ∈ q.root.keys, ∃ r, parse {} ("x" ++ " sortBy " ++ k.text) = .ok r ∧
        r.root = .clause { id := 0, height := 1, sortKeys := [k] } (.ofTerm ⟨"x"⟩) := by
  have checked : ((parse {} "a CQL.b\\=c/d.e>\"f g\" h Prox/i<3 j sortby \"k l\"/m").toOption.any
      fun q => decide (∀ c ∈ q.clauses, c.relation.Worded defaultWordChars) &&
        decide (∀ b ∈ q.root.booleans, b.Worded defaultWordChars) &&
        decide (∀ k ∈ q.root.keys, k.WordedLast defaultWordChars) &&
        q.clauses.map (·.relation.text) == ["b\\=c/d.e>\"f g\"", "="] &&
        q.root.booleans.map Boolean.text == ["prox/i<3"] &&
        q.root.keys.map Index.text == ["\"k l\"/m"]) = true := by
    decide +kernel
  obtain ⟨q, read, parts⟩ := exists_eq_ok_of_any checked
  simp only [Bool.and_eq_true, decide_eq_true_eq, beq_iff_eq] at parts
  obtain ⟨⟨⟨⟨⟨related, joined⟩, sorted⟩, relations⟩, booleans⟩, keys⟩ := parts
  have x : Alphanumeric "x" := ⟨by decide, List.all_eq_true.1 (by decide)⟩
  have y : Alphanumeric "y" := ⟨by decide, List.all_eq_true.1 (by decide)⟩
  obtain ⟨relation, boolean, key⟩ := parse_operators read x y
  exact ⟨q, read, relations, booleans, keys, fun c hc => relation c hc (related c hc),
    fun b hb => boolean b hb (joined b hb), fun k hk => key k hk (sorted k hk)⟩

/-- Without its set the relation `cql.and` is read as a boolean. -/
theorem not_parse_operators : ∃ q, parse {} "a cql.and b" = .ok q ∧
    ∃ c ∈ q.clauses, c.relation.kind = .named "and" ∧ ∀ i w, Alphanumeric i → Alphanumeric w →
      ∃ r, parse {} (i ++ " " ++ c.relation.text ++ " " ++ w) = .ok r ∧
        ∀ c' ∈ r.clauses, c'.relation.kind = .comparison .eq := by
  have checked : ((parse {} "a cql.and b").toOption.any fun q => q.clauses.any fun c =>
      c.relation.kind = .named "and" && c.relation.text == "and") = true := by
    decide +kernel
  obtain ⟨q, read, found⟩ := exists_eq_ok_of_any checked
  obtain ⟨c, hc, named⟩ := List.any_eq_true.1 found
  simp only [Bool.and_eq_true, decide_eq_true_eq, beq_iff_eq] at named
  obtain ⟨named, text⟩ := named
  refine ⟨q, read, c, hc, named, fun i w left right => ?_⟩
  have word : Alphanumeric "and" := ⟨by decide, List.all_eq_true.1 (by decide)⟩
  have joins : Sourced (Token.Lexed defaultWordChars) BooleanSpelling { connective := .and } :=
    ⟨[.word "and"], none, by simpa using word.alone.lexed, .word rfl (.nil rfl)⟩
  have written : Boolean.text { connective := .and } = "and" := rfl
  rw [text, ← written]
  refine ⟨_, parse_boolean_text joins (by simp [Boolean.Worded]) left right, ?_⟩
  simp [Query.clauses, Node.clauses, Clause.ofTerm]

end ContextualQuery
