import ContextualQuery.Proofs.RoundTrip.Written
import ContextualQuery.Query.JsonView
import ContextualQuery.Search.Compile
import ContextualQuery.Search.ResultSet
import Mathlib.Data.List.Forall2

/-! What a query is written as is read as the same query.

    Part by part, what is written for a tree is read as the phrase it is written as
    (`legible_tree`), and that phrase builds the tree. So the canonical form of a query stands for the
    very same tree, and for everything that depends on the tree (`parse_text`). -/

namespace ContextualQuery

open Lexemes Reading Unicode

variable {rules : Rules} {info : NodeInfo} {body : Phrase} {t : Node} {n : Nat} {text : String}
  {next : Option Token}

/-! ### Nodes with what is attached to them -/

/-- What is written for an operand. -/
abbrev LegibleOperand (rules : Rules) (text : String) (p : Phrase) : Prop :=
  Legible rules.wordChars (Spells rules .operand) (fun t => !t.modifies) (fun _ => false) text p

theorem Closing.any_eq (h : Closing next) {p : Token → Bool} (refused : p .closeParen = false) :
    next.any p = false := by
  rcases h with rfl | rfl
  · rfl
  · exact refused

section

variable [Harmless rules.wordChars]

theorem prints_sortBy : Prints rules.wordChars "sortBy" [.word "sortBy"] := by
  have letters : ∀ c ∈ "sortBy".toList, isAlphanumeric c = true := List.all_eq_true.1 (by decide)
  exact (Token.alone_word (by decide) (escaped_of_isAlphanumeric letters)).prints

/-- A node is read as a chain, with the sort keys behind it. -/
theorem NodeInfo.exists_chain (quotes : rules.rejectQuotedName = false)
    (sourced : info.Sourced (Token.Lexed rules.wordChars) rules)
    (worded : info.Worded rules.wordChars) (operand : LegibleOperand rules text body) :
    ∃ wss, List.Forall₂ (Prints rules.wordChars) (text :: info.sortWords) wss ∧
      wss.flatten.head?.any (fun t => !t.modifies) = true ∧
      ∀ next, Closing next → Spells rules .chain wss.flatten next
        (if info.sortKeys.isEmpty then body else .sort body info.sortKeys) := by
  obtain ⟨us, prints, head, spells⟩ := operand
  rw [sortWords]
  split
  next empty =>
    refine ⟨[us], .cons prints .nil, by simpa using head, fun next closes => ?_⟩
    simpa using Spells.chain (v := []) (spells _ (by simp))
      (.done (closes.any_eq rfl)) (closes.any_eq rfl)
  next some_key =>
    have legible : ∀ k ∈ info.sortKeys,
        Legible rules.wordChars (KeySpelling rules) Token.isText Token.modifies k.text k :=
      fun k hk => legible_key quotes (sourced.2 k hk) (worded.2 k hk)
    obtain ⟨kss, prints', -, spells'⟩ := exists_sequence legible fun t ht => by
      cases t <;> simp_all [Token.isText, Token.modifies, Token.isComparison]
    refine ⟨us :: [.word "sortBy"] :: kss, .cons prints (.cons prints_sortBy prints'), ?_,
      fun next closes => ?_⟩
    · cases us with
      | nil => simp at head
      | cons t us => exact head
    · have sorting := spells' next (closes.any_eq rfl) (closes.any_eq rfl)
      simpa using Spells.sorted (v := []) (t := .word "sortBy") (spells _ rfl) (.done rfl)
        (by decide) (by simpa using some_key) sorting

/-- The declarations of a node, in front of what starts with no comparison. -/
theorem NodeInfo.exists_declarations (quotes : rules.rejectQuotedName = false)
    (sourced : info.Sourced (Token.Lexed rules.wordChars) rules) (lower : info.prefixes.Lower)
    (worded : ∀ d ∈ info.prefixes.entries, DeclarationWorded rules.wordChars d) :
    ∃ dss, List.Forall₂ (Prints rules.wordChars)
        (info.prefixes.entries.map fun d => declarationText d.1 d.2) dss ∧
      ∀ v next, v.head?.any (fun t => !t.modifies) = true →
        GroupSpelling rules dss.flatten (ahead v next) info.prefixes.entries := by
  have legible : ∀ d ∈ info.prefixes.entries, Legible rules.wordChars (DeclarationSpelling rules)
      (· == .comparison .gt) (· == .comparison .eq) (declarationText d.1 d.2) d :=
    fun d hd => legible_declaration quotes (sourced.1 d hd).1 (worded d hd).1 (worded d hd).2
  obtain ⟨dss, prints, -, spells⟩ := exists_sequence legible fun t ht => by
    obtain rfl : t = .comparison .gt := by simpa using ht
    rfl
  have addable : Addable rules .empty info.prefixes.entries :=
    addable_of_ascending lower (fun d hd => (sourced.1 d hd).2) info.prefixes.bindings.ascending
  refine ⟨dss, prints, fun v next head => .group (spells _ ?_ ?_) addable⟩
  all_goals
    refine any_ahead_eq_false head (fun t ht => ?_) next
    cases t <;> simp_all [Token.modifies, Token.isComparison]

/-- A node is read as a query, with its declarations in front of it. -/
theorem NodeInfo.exists_query (quotes : rules.rejectQuotedName = false)
    (sourced : info.Sourced (Token.Lexed rules.wordChars) rules) (lower : info.prefixes.Lower)
    (worded : info.Worded rules.wordChars) (operand : LegibleOperand rules text body) :
    ∃ us, Prints rules.wordChars (info.surround text) us ∧
      ∀ next, Closing next → Spells rules .query us next (info.phrase body) := by
  obtain ⟨wss, prints, head, spells⟩ := exists_chain quotes sourced worded operand
  obtain ⟨dss, prints', declared⟩ := exists_declarations quotes sourced lower worded.1
  refine ⟨(dss ++ wss).flatten, .intercalate (List.rel_append prints' prints),
    fun next closes => ?_⟩
  rw [List.flatten_append]
  exact .query (declared _ next head) (spells next closes)

theorem intercalate_eq_join {xs : List String} (some_text : xs ≠ []) :
    " " ++ " ".intercalate xs = String.join (xs.map (" " ++ ·)) := by
  induction xs with
  | nil => exact absurd rfl some_text
  | cons x xs ih =>
    cases xs with
    | nil => simp
    | cons y ys =>
      rw [String.intercalate_cons_cons, List.map_cons, String.join_cons,
        ← ih (List.cons_ne_nil _ _)]
      simp only [String.append_assoc]

theorem intercalate_append_join {xs ys : List String} (some_text : xs ≠ []) (some_text' : ys ≠ []) :
    " ".intercalate (xs ++ ys) = " ".intercalate xs ++ String.join (ys.map (" " ++ ·)) := by
  rw [String.intercalate_append_of_ne_nil some_text some_text', String.append_assoc,
    intercalate_eq_join some_text']

theorem NodeInfo.surround_sorted (sorted : info.sortKeys ≠ []) (text : String) :
    info.surround text =
      " ".intercalate (info.prefixes.entries.map (fun d => declarationText d.1 d.2) ++
        [text, "sortBy"]) ++ String.join (info.sortKeys.map fun k => " " ++ k.text) := by
  rw [surround, sortWords, if_neg (by simpa using sorted), List.append_cons, List.append_cons,
    List.append_assoc _ [text], intercalate_append_join (by simp) (by simpa using sorted),
    List.map_map]
  rfl

/-- At the end of a text the value of the last modifier may be open. -/
theorem NodeInfo.exists_query_last (quotes : rules.rejectQuotedName = false)
    (sourced : info.Sourced (Token.Lexed rules.wordChars) rules) (lower : info.prefixes.Lower)
    (worded : info.WordedLast rules.wordChars) (operand : LegibleOperand rules text body) :
    ∃ us, Lexes rules.wordChars (info.surround text).toList us ∧
      Spells rules .query us none (info.phrase body) := by
  obtain ⟨declaring, sorting⟩ := worded
  by_cases sorted : info.sortKeys = []
  · obtain ⟨us, prints, spells⟩ := exists_query quotes sourced lower
      ⟨declaring, by simp [sorted]⟩ operand
    exact ⟨us, prints.lexes, spells none (.inl rfl)⟩
  · obtain ⟨u, prints, head, spells⟩ := operand
    obtain ⟨dss, prints', declared⟩ := exists_declarations quotes sourced lower declaring
    obtain ⟨v, lexes, keys⟩ := exists_keys_last quotes sourced.2 sorting
    have front := Prints.intercalate (List.rel_append prints'
      (.cons prints (.cons prints_sortBy .nil)))
    refine ⟨dss.flatten ++ (u ++ .word "sortBy" :: v), ?_, .query (declared _ none ?_) ?_⟩
    · rw [surround_sorted sorted]
      have marks : ∀ c ∈ (String.join (info.sortKeys.map fun k => " " ++ k.text)).toList.head?,
          c ∈ [' ', '/', ')'] := fun c hc => by
        simp [head_join Index.head_spaced info.sortKeys c hc]
      simpa using front.lexes_append lexes marks
    · cases u with
      | nil => simp at head
      | cons t u => exact head
    · simpa [sorted] using Spells.sorted (v := []) (t := .word "sortBy") (spells _ rfl) (.done rfl)
        (by decide) sorted keys

theorem NodeInfo.legible_below (quotes : rules.rejectQuotedName = false)
    (sourced : info.Sourced (Token.Lexed rules.wordChars) rules) (lower : info.prefixes.Lower)
    (worded : info.Worded rules.wordChars) (operand : LegibleOperand rules text body) :
    LegibleOperand rules (info.surroundBelow text) (info.phraseBelow body) := by
  rw [surroundBelow, phraseBelow]
  split
  next =>
    obtain ⟨us, prints, spells⟩ := exists_query quotes sourced lower worded operand
    exact ⟨.openParen :: (us ++ [.closeParen]), prints.parens, rfl, fun next _ =>
      .paren (spells _ (.inr rfl))⟩
  next unscoped =>
    obtain ⟨prefixes, keys⟩ := isScoped_eq_false (Bool.eq_false_iff.2 unscoped)
    have alone : info.surround text = text := by
      rw [surround, sortWords, prefixes, keys]
      exact String.intercalate_singleton
    rwa [alone]

/-- Two trees joined by a boolean stand between parentheses. -/
theorem legible_joined {left right : Phrase} {b : Boolean} {l r : String}
    (hl : LegibleOperand rules l left) (hr : LegibleOperand rules r right)
    (hb : Legible rules.wordChars BooleanSpelling Token.isBoolean Token.modifies b.text b) :
    LegibleOperand rules (Node.joinText l b r) (.joined left b right) := by
  obtain ⟨ul, prints, head, spells⟩ := hl
  obtain ⟨ub, prints', head', spells'⟩ := hb
  obtain ⟨ur, prints'', head'', spells''⟩ := hr
  refine ⟨.openParen :: (ul ++ ub ++ ur ++ [.closeParen]), ?_, rfl, fun next _ => ?_⟩
  · have inner := ((prints.spaced prints').spaced prints'').parens
    simpa [Node.joinText, String.append_assoc] using inner
  · have joined : BooleanSpelling ub (ahead (ur ++ []) (some .closeParen)) b := by
      refine spells' _ (any_ahead_eq_false (by rwa [List.append_nil]) (fun t ht => ?_) _)
      simpa using ht
    have done : Spells rules (.links (.join left b right)) [] (some .closeParen)
        (.join left b right) := .done rfl
    have links := Spells.link joined (spells'' _ (by simp)) done
    have chain := Spells.chain (spells _ (by simp)) links rfl
    -- Without declarations the inside is a chain, which must not look like one more declaration.
    have front : ahead (ul ++ (ub ++ (ur ++ []))) (some .closeParen) ≠ some (.comparison .gt) := by
      cases ul with
      | nil => simp at head
      | cons t ul =>
        intro greater
        obtain rfl : t = .comparison .gt := by simpa using greater
        simp [Token.modifies, Token.isComparison] at head
    have query : Spells rules .query (ul ++ (ub ++ (ur ++ []))) (some .closeParen)
        (.joined left b right) :=
      .query (u := []) (no_declarations front) chain
    have operand : Spells rules .operand _ next _ := .paren query
    simpa using operand

/-! ### Trees -/

theorem legible_clause_operand {c : Clause} (quotes : rules.rejectQuotedName = false)
    (sourced : Sourced (Token.Lexed rules.wordChars) (ClauseSpelling rules) c)
    (worded : c.Worded rules.wordChars) : LegibleOperand rules c.text (.clause c) := by
  obtain ⟨us, prints, head, spells⟩ := legible_clause quotes sourced worded
  exact ⟨us, prints, head, fun next free => .clause (spells next free)⟩

/-- What is written for the operand that a node is, and for the same with what is attached to the
    node. -/
theorem legible_tree (quotes : rules.rejectQuotedName = false)
    (sourced : t.Sourced (Token.Lexed rules.wordChars) rules) (built : t.Built n)
    (worded : t.Worded rules.wordChars) : LegibleOperand rules t.textBelow t.phraseBelow := by
  induction t generalizing n with
  | clause info c =>
    exact NodeInfo.legible_below quotes sourced.1 built.2.2 worded.1
      (legible_clause_operand quotes sourced.2 worded.2)
  | triple info left b right ih ih' =>
    obtain ⟨attached, hl, hb, hr⟩ := sourced
    obtain ⟨here, worded_left, joined, worded_right⟩ := worded
    obtain ⟨built_left, built_right, -, -, lower⟩ := built
    exact NodeInfo.legible_below quotes attached lower here
      (legible_joined (ih hl built_left worded_left) (ih' hr built_right worded_right)
        (legible_boolean hb joined))

/-- What is written for a whole tree that was read. -/
theorem exists_tokens_text (quotes : rules.rejectQuotedName = false)
    (sourced : t.Sourced (Token.Lexed rules.wordChars) rules) (built : t.Built n)
    (worded : t.WordedLast rules.wordChars) :
    ∃ us, Lexes rules.wordChars t.text.toList us ∧ Spells rules .query us none t.phrase := by
  cases t with
  | clause info c =>
    exact NodeInfo.exists_query_last quotes sourced.1 built.2.2 worded.1
      (legible_clause_operand quotes sourced.2 worded.2)
  | triple info left b right =>
    obtain ⟨attached, hl, hb, hr⟩ := sourced
    obtain ⟨here, worded_left, joined, worded_right⟩ := worded
    obtain ⟨built_left, built_right, -, -, lower⟩ := built
    exact NodeInfo.exists_query_last quotes attached lower here
      (legible_joined (legible_tree quotes hl built_left worded_left)
        (legible_tree quotes hr built_right worded_right) (legible_boolean hb joined))

/-! ### Queries -/

/-- What is written for a query is spelled as its tree is, whatever limit it is read under, and fits
    under large limits. -/
theorem spells_text {s : String} {q : Query} (quotes : rules.rejectQuotedName = false)
    (read : parse rules s = .ok q) (worded : q.root.WordedLast rules.wordChars) {m : Nat}
    (twice : 2 * rules.maxDepth ≤ m) :
    (∃ us, Lexes rules.wordChars q.text.toList us ∧
      Spells (rules.withDepth m) .query us none q.root.phrase) ∧
      q.root.phrase.Fits (rules.withDepth m) m [] ∧ q.root.phrase.build 0 = q.root ∧
      q.root.phrase.size = q.size ∧ q.defaults = rules.defaultPrefixes := by
  obtain ⟨ts, p, lexed, spelled, fits, rfl⟩ := parse_eq_ok.1 read
  have quotes : (rules.withDepth m).rejectQuotedName = false := quotes
  have again : Spells (rules.withDepth m) .query ts none p := spelled.closing none (.refl none)
  have sourced := (again.sourced (ofText_eq.1 lexed).taken (by simp)).build 0
  have built := built_build p 0
  have low : (p.build 0).height ≤ rules.maxDepth := by
    rw [height_build]
    exact spelled.height_le fits
  have apart (strict : rules.rejectDuplicatePrefix = true) : (p.build 0).Apart (claimed []) :=
    fits.apart strict 0
  have : Harmless (rules.withDepth m).wordChars := inferInstanceAs (Harmless rules.wordChars)
  refine ⟨exists_tokens_text quotes sourced built worded, ?_, build_phrase built, ?_, rfl⟩
  · have low' : (p.build 0).height ≤ m := by omega
    exact fits_phrase built low' (show 2 * (p.build 0).height ≤ m by omega) apart
  · rw [size_phrase, count_build]

end

/-- Under a limit twice as large, what a query is written as is read as the same query. -/
theorem parse_text_eq {s : String} {q : Query} (usual : rules.wordChars = defaultWordChars)
    (quotes : rules.rejectQuotedName = false) (read : parse rules s = .ok q)
    (dotless : 'İ' ∉ s.toList) (ended : Ended s)
    (plain : ∀ c ∈ q.clauses, c.relation.Plain) (simple : ∀ m ∈ q.root.modifiers, m.Plain) {m : Nat}
    (twice : 2 * rules.maxDepth ≤ m) :
    parse (rules.withDepth m) q.text = .ok { q with source := q.text } := by
  have worded : q.root.Worded rules.wordChars := by
    obtain ⟨ts, p, lexed, ended, spelled, -, rfl⟩ := spells_of_parse usual read ended
    rw [usual]
    exact Node.worded_of_plain ((spelled.sourced (lexed.sound ended dotless) (by simp)).build 0)
      plain simple
  have : Harmless rules.wordChars := usual ▸ inferInstance
  obtain ⟨⟨us, lexed, spelled⟩, fits, built, size, defaults⟩ :=
    spells_text quotes read worded.last twice
  rw [usual] at lexed
  have reread := @parse_of_spells (rules.withDepth m) _ _ usual lexed _ spelled fits
  rw [built, size] at reread
  rw [reread, defaults]

/-- What a query is written as is read as a query with the same nodes, and so with the same data,
    the same search string for all names of fields and the same result set. -/
theorem parse_text {s : String} {q : Query} (usual : rules.wordChars = defaultWordChars)
    (quotes : rules.rejectQuotedName = false) (read : parse rules s = .ok q)
    (dotless : 'İ' ∉ s.toList) (ended : Ended s)
    (plain : ∀ c ∈ q.clauses, c.relation.Plain) (simple : ∀ m ∈ q.root.modifiers, m.Plain) {m : Nat}
    (twice : 2 * rules.maxDepth ≤ m) :
    ∃ r, parse { rules with maxDepth := m } q.text = .ok r ∧
      r.root = q.root ∧ r.size = q.size ∧ r.defaults = q.defaults ∧ r.places = q.places ∧
      r.json = q.json ∧ r.text = q.text ∧ r.resultSet? = q.resultSet? ∧
      ∀ names, r.compile names =
        (q.compile names).mapError fun refusal => { refusal with query := q.text } := by
  refine ⟨_, parse_text_eq usual quotes read dotless ended plain simple twice, rfl, rfl, rfl, rfl,
    rfl, rfl, rfl, fun names => ?_⟩
  rw [Query.compile, Query.compile]
  change (q.root.compile names q.scope).mapError _ = _
  cases q.root.compile names q.scope <;> rfl

/-- Declarations and sort keys of subqueries stay where they are. -/
theorem parse_text_of_scopes :
    ∃ q r, parse {} ">X=\"u\" (X.A cql.Any/Fuzzy \"b c\" and (> \"v\" d sortby \"E f\"/asc))" = .ok q ∧
      parse { maxDepth := 512 } q.text = .ok r ∧ r.root = q.root := by
  have checked : ((parse {} ">X=\"u\" (X.A cql.Any/Fuzzy \"b c\" and (> \"v\" d sortby \"E f\"/asc))"
      ).toOption.any fun q => q.clauses.all (fun c => decide c.relation.Plain) &&
        q.root.modifiers.all fun m => decide m.Plain) = true := by
    decide +kernel
  obtain ⟨q, read, parts⟩ := exists_eq_ok_of_any checked
  simp only [Bool.and_eq_true, List.all_eq_true, decide_eq_true_eq] at parts
  have ended : Ended ">X=\"u\" (X.A cql.Any/Fuzzy \"b c\" and (> \"v\" d sortby \"E f\"/asc))" := by
    unfold Ended
    decide +kernel
  obtain ⟨r, reread, root, -⟩ :=
    parse_text rfl rfl read (by decide) ended parts.1 parts.2 (m := 512) (by decide)
  exact ⟨q, r, read, reread, root⟩

end ContextualQuery
