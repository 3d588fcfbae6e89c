import ContextualQuery.Proofs.Lexing.Printing
import ContextualQuery.Proofs.Numbering
import ContextualQuery.Proofs.PrefixMap
import ContextualQuery.Proofs.Reading.Usual

/-! Queries are put together from queries.

    Between parentheses a query is read as it is read alone, so two of them joined by a boolean make
    a triple of their trees, and a declaration in front of a query only adds to its root
    (`parse_composed`). -/

namespace ContextualQuery

open Lexemes Reading Unicode

variable {rules : Rules} {s s' : String} {q q' : Query} {ts : List Token}

/-! ### Tokens -/

/-- The tokens of a text behind a declaration. -/
theorem Lexemes.Lexes.declared (h : Lexes defaultWordChars s.toList ts) {n u : String}
    (name : (Token.word n).Alone defaultWordChars) (inside : Escaped isInside u.toList) :
    Lexes defaultWordChars (">" ++ n ++ "=\"" ++ u ++ "\" " ++ s).toList
      (.comparison .gt :: .word n :: .comparison .eq :: .quoted (Text.quote u) :: ts) := by
  simpa [Text.quote, String.append_assoc] using (prints_named name inside).lexes_spaced h

/-! ### Phrases -/

/-- A chain that starts with a parenthesis is a query. -/
theorem spells_undeclared {u : List Token} {next : Option Token} {p : Phrase}
    (h : Spells rules .chain (.openParen :: u) next p) :
    Spells rules .query (.openParen :: u) next (.scope [] p) :=
  .query (u := []) (no_declarations (by simp)) h

/-- Below one more group a phrase fits where one more level of depth is allowed. -/
theorem Phrase.Fits.deeper {p : Phrase} (fits : p.Fits rules rules.maxDepth []) :
    p.Fits (rules.withDepth (rules.maxDepth + 1)) rules.maxDepth [[]] :=
  fits.withDepth (Nat.le_succ _) (Nat.le_refl _) (by simp)

/-- A query between parentheses, as an operand. -/
theorem Spells.parens {p : Phrase} (h : Spells rules .query ts none p) (m : Nat)
    (next : Option Token) :
    Spells (rules.withDepth m) .operand (.openParen :: (ts ++ [.closeParen])) next p :=
  .paren (h.closing _ (.inr ⟨.inl rfl, .inr rfl⟩))

/-! ### One query between parentheses -/

theorem parse_parens (usual : rules.wordChars = defaultWordChars) (read : parse rules s = .ok q)
    (ended : Ended s) :
    ∃ r, parse (rules.withDepth (rules.maxDepth + 1)) ("(" ++ s ++ ")") = .ok r ∧
      r.root = q.root ∧ r.size = q.size ∧ r.defaults = q.defaults := by
  obtain ⟨ts, p, lexed, ended, spelled, fits, rfl⟩ := spells_of_parse usual read ended
  have lexed : Lexes defaultWordChars ("(" ++ s ++ ")").toList
      (.openParen :: (ts ++ [.closeParen])) := by
    exact (lexed.prints ended).parens.lexes
  -- One scope more is open inside the parentheses, which the raised limit allows.
  have chain : Spells (rules.withDepth (rules.maxDepth + 1)) .chain
      (.openParen :: (ts ++ [.closeParen])) none p := by
    simpa using Spells.chain (v := []) (spelled.parens _ none) (.done rfl) rfl
  have usual : (rules.withDepth (rules.maxDepth + 1)).wordChars = defaultWordChars := usual
  exact ⟨_, parse_of_spells usual lexed (spells_undeclared chain)
    fits.deeper.undeclared, Node.declare_empty (p.build 0), rfl, rfl⟩

/-! ### Two queries joined -/

theorem parse_joined (usual : rules.wordChars = defaultWordChars) (read : parse rules s = .ok q)
    (ended : Ended s) (read' : parse rules s' = .ok q') (ended' : Ended s') {op : String}
    {c : Connective} (joins : Connective.ofWord? op = some c) :
    ∃ r, parse (rules.withDepth (rules.maxDepth + 1)) ("(" ++ s ++ ") " ++ op ++ " (" ++ s' ++ ")") =
        .ok r ∧
      r.root = .triple { id := q.size + q'.size, height := 1 + max q.root.height q'.root.height }
        q.root { connective := c } (q'.root.shift q.size) ∧
      r.size = q.size + q'.size + 1 ∧ r.defaults = q.defaults := by
  obtain ⟨ts, p, lexed, ended, spelled, fits, rfl⟩ := spells_of_parse usual read ended
  obtain ⟨ts', p', lexed', ended', spelled', fits', rfl⟩ := spells_of_parse usual read' ended'
  have lexed : Lexes defaultWordChars ("(" ++ s ++ ") " ++ op ++ " (" ++ s' ++ ")").toList
      (.openParen :: (ts ++ .closeParen :: .word op :: .openParen :: (ts' ++ [.closeParen]))) := by
    have front := (lexed.prints ended).parens
    have back := (lexed'.prints ended').parens
    simpa [Token.text] using
      ((front.spaced (Token.alone_of_ofWord? joins).prints).spaced back).lexes
  have chain : Spells (rules.withDepth (rules.maxDepth + 1)) .chain
      (.openParen :: (ts ++ .closeParen :: .word op :: .openParen :: (ts' ++ [.closeParen]))) none
      (.join p { connective := c } p') := by
    have joined : BooleanSpelling [.word op] (some .openParen) { connective := c } :=
      .word joins (.nil rfl)
    have links : Spells (rules.withDepth (rules.maxDepth + 1)) (.links p)
        ([.word op] ++ ((.openParen :: (ts' ++ [.closeParen])) ++ [])) none
        (.join p { connective := c } p') :=
      .link joined (spelled'.parens _ none) (.done rfl)
    simpa using Spells.chain (spelled.parens _ (some (.word op))) links rfl
  have low : 1 + max p.height p'.height ≤ rules.maxDepth + 1 := by
    have := spelled.height_le fits
    have := spelled'.height_le fits'
    omega
  have usual : (rules.withDepth (rules.maxDepth + 1)).wordChars = defaultWordChars := usual
  have fits : Phrase.Fits (rules.withDepth (rules.maxDepth + 1))
      (.scope [] (.join p { connective := c } p')) (rules.maxDepth + 1) [] :=
    Phrase.Fits.undeclared ⟨fits.deeper, fits'.deeper, low⟩
  refine ⟨_, parse_of_spells usual lexed (spells_undeclared chain) fits, ?_, rfl, rfl⟩
  change ((Phrase.join p { connective := c } p').build 0).declare .empty = _
  rw [Node.declare_empty]
  simp only [Phrase.build, height_build, ← Phrase.build_add, Nat.zero_add]

/-! ### A query behind a declaration -/

theorem DeclarationSpelling.quoted (quotes : rules.rejectQuotedName = false) (n u : String)
    (next : Option Token) : DeclarationSpelling rules
      [.comparison .gt, .word n, .comparison .eq, .quoted (Text.quote u)] next (lowercase n, u) := by
  have named := @DeclarationSpelling.named rules n _ next _ (.quoted (s := Text.quote u) quotes)
  rwa [Text.unquote_quote] at named

theorem lower_build (p : Phrase) (n : Nat) : (p.build n).prefixes.Lower := by
  induction p generalizing n with
  | clause c => exact PrefixMap.lower_empty
  | join left b right _ _ => exact PrefixMap.lower_empty
  | sort body keys ih =>
    rw [Phrase.build, Node.prefixes_sortBy]
    exact ih n
  | scope group body ih =>
    rw [Phrase.build, Node.prefixes_declare]
    exact (ih n).withDefaults _

/-- One more declaration in front of a group counts where neither the group nor the tree has one. -/
theorem withDefaults_ofList_cons {m : PrefixMap} (lower : m.Lower) (n u : String)
    (group : Declarations) :
    m.withDefaults (.ofList ((lowercase n, u) :: group)) =
      (m.withDefaults (.ofList group)).insertNew n u := by
  refine PrefixMap.ext_get? (lower.withDefaults _) ((lower.withDefaults _).insertNew n u) fun name => ?_
  rw [PrefixMap.get?_insertNew, PrefixMap.get?_withDefaults _ (PrefixMap.lower_ofList _),
    PrefixMap.get?_withDefaults _ (PrefixMap.lower_ofList _), PrefixMap.get?_ofList,
    PrefixMap.get?_ofList, List.reverse_cons, List.find?_append, Option.or_assoc]
  congr 1
  cases List.find? _ group.reverse with
  | some d => simp
  | none => by_cases same : lowercase name = lowercase n <;> simp [same]

theorem declare_ofList_cons {t : Node} (lower : t.prefixes.Lower) (n u : String)
    (group : Declarations) :
    t.declare (.ofList ((lowercase n, u) :: group)) =
      (t.declare (.ofList group)).mapInfo fun info =>
        { info with prefixes := info.prefixes.insertNew n u } := by
  have added := withDefaults_ofList_cons lower n u group
  cases t with
  | clause info c => exact congrArg (fun m => Node.clause { info with prefixes := m } c) added
  | triple info left b right =>
    exact congrArg (fun m => Node.triple { info with prefixes := m } left b right) added

/-- Without the check for duplicates it does not matter which groups are open around a phrase. -/
theorem Phrase.Fits.change_groups (duplicates : rules.rejectDuplicatePrefix = false) {p : Phrase} :
    ∀ {depth : Nat} {groups : List Declarations} (groups' : List Declarations),
      p.Fits rules depth groups → p.Fits rules depth groups' := by
  induction p with
  | clause c => exact fun _ _ => trivial
  | join left b right ih ih' =>
    rintro depth groups groups' ⟨fits, fits', low⟩
    exact ⟨ih groups' fits, ih' groups' fits', low⟩
  | sort body keys ih => exact ih
  | scope group body ih =>
    intro depth groups groups' fits
    cases depth with
    | zero => exact fits
    | succ depth => exact ⟨by simp [duplicates], ih _ fits.2⟩

theorem parse_declared (usual : rules.wordChars = defaultWordChars)
    (quotes : rules.rejectQuotedName = false) (duplicates : rules.rejectDuplicatePrefix = false)
    (read : parse rules s = .ok q) {n u : String} (some_char : n ≠ "")
    (letters : ∀ c ∈ n.toList, c.isAlphanum = true) (plain : ∀ c ∈ u.toList, c ≠ '"' ∧ c ≠ '\\') :
    ∃ r, parse rules (">" ++ n ++ "=\"" ++ u ++ "\" " ++ s) = .ok r ∧
      r.root = q.root.mapInfo (fun info =>
        { info with prefixes := info.prefixes.insertNew n u }) ∧
      r.size = q.size ∧ r.defaults = q.defaults := by
  obtain ⟨ts, p, lexed, spelled, fits, rfl⟩ := parse_eq_ok.1 read
  rw [usual] at lexed
  have name : (Token.word n).Alone defaultWordChars := Token.alone_word some_char
    (escaped_of_isAlphanumeric fun c hc => isAlphanumeric_of_isAlphanum (letters c hc))
  have inside : Escaped isInside u.toList :=
    .of_forall fun c hc => ⟨(plain c hc).2, by simpa [isInside] using (plain c hc).1⟩
  have lexed := (ofText_eq.1 lexed).declared name inside
  cases spelled with
  | @query v w next group body declared chain =>
    obtain ⟨written, -⟩ := declared
    have bound := DeclarationSpelling.quoted quotes n u (ahead (v ++ w) none)
    have fits : Phrase.Fits rules (.scope ((lowercase n, u) :: group) body) rules.maxDepth [] := by
      cases depth : rules.maxDepth with
      | zero =>
        rw [depth] at fits
        exact fits
      | succ depth' =>
        rw [depth] at fits
        -- The new declaration joins the group in front, where nothing may be refused as declared
        -- twice.
        exact ⟨by simp [duplicates], fits.2.change_groups duplicates _⟩
    rw [ahead_append] at bound
    have spelled := Spells.query (.group (.cons bound written) (addable_of_lenient duplicates _ _)) chain
    exact ⟨_, parse_of_spells usual lexed spelled fits,
      declare_ofList_cons (lower_build body 0) n u group, rfl, rfl⟩

/-! ### All together -/

/-- How two search strings are joined. -/
def joinedSearch (c : Connective) (e e' : String) : Option String :=
  match c with
  | .and => some ("(" ++ e ++ " AND " ++ e' ++ ")")
  | .or => some ("(" ++ e ++ " OR " ++ e' ++ ")")
  | .not => some ("NOT(" ++ e ++ " AND " ++ e' ++ ")")
  | .prox => none

theorem Node.compile_joined (names : FieldNames) {s : Scope} {info : NodeInfo} {left right : Node}
    {c : Connective} {e e' joined : String} (bare : info.prefixes = .empty)
    (unsorted : info.sortKeys = [])
    (hl : left.compile names s = .ok e) (hr : right.compile names s = .ok e')
    (h : joinedSearch c e e' = some joined) :
    (Node.triple info left { connective := c } right).compile names s = .ok joined := by
  have inner (name : String) : (s.enter info.prefixes).resolve name = s.resolve name := by
    rw [Scope.resolve_enter, bare]
    rfl
  rw [Node.compile, left.compile_congr names inner, right.compile_congr names inner, hl, hr]
  simp only [NodeInfo.unsorted, unsorted, Boolean.compile]
  cases c with
  | and | or | not =>
    obtain rfl := Option.some.inj h
    refine congrArg Except.ok (String.toList_injective ?_)
    simp
  | prox => simp [joinedSearch] at h

/-- Queries make queries: alone between parentheses, joined by a boolean, and behind a
    declaration. -/
theorem parse_composed (usual : rules.wordChars = defaultWordChars) (read : parse rules s = .ok q)
    (ended : Ended s) (read' : parse rules s' = .ok q') (ended' : Ended s') :
    (∃ r, parse { rules with maxDepth := rules.maxDepth + 1 } ("(" ++ s ++ ")") = .ok r ∧
      r.root = q.root ∧ r.size = q.size ∧ r.defaults = q.defaults) ∧
    (∀ op c, Connective.ofWord? op = some c →
      ∃ r, parse { rules with maxDepth := rules.maxDepth + 1 }
          ("(" ++ s ++ ") " ++ op ++ " (" ++ s' ++ ")") = .ok r ∧
        r.root = .triple { id := q.size + q'.size, height := 1 + max q.root.height q'.root.height }
          q.root { connective := c } (q'.root.shift q.size) ∧
        r.size = q.size + q'.size + 1 ∧ r.defaults = q.defaults ∧
        r.json = .object [("boolean", Boolean.json { connective := c }), ("left", q.json),
          ("right", q'.json), ("type", .string "triple")] ∧
        ∀ names e e' joined, q.compile names = .ok e → q'.compile names = .ok e' →
          joinedSearch c e e' = some joined → r.compile names = .ok joined) ∧
    (rules.rejectQuotedName = false → rules.rejectDuplicatePrefix = false →
      ∀ n u : String, n ≠ "" → (∀ c ∈ n.toList, c.isAlphanum = true) →
        (∀ c ∈ u.toList, c ≠ '"' ∧ c ≠ '\\') →
        ∃ r, parse rules (">" ++ n ++ "=\"" ++ u ++ "\" " ++ s) = .ok r ∧
          r.root = q.root.mapInfo (fun info =>
            { info with prefixes := info.prefixes.insertNew n u }) ∧
          r.size = q.size ∧ r.defaults = q.defaults) := by
  refine ⟨parse_parens usual read ended, fun op c joins => ?_, fun quotes duplicates n u some_char
    letters plain => parse_declared usual quotes duplicates read some_char letters plain⟩
  -- What remains is told by the tree: its value and what it is compiled to do not show numbers.
  obtain ⟨r, composed, root, size, defaults⟩ := parse_joined usual read ended read' ended' joins
  refine ⟨r, composed, root, size, defaults, ?_, fun names e e' joined he he' hjoined => ?_⟩
  · rw [Query.json, root, Node.json, Node.json_shift]
    rfl
  · have same : q'.defaults = q.defaults := by
      obtain ⟨_, _, _, _, _, rfl⟩ := parse_eq_ok.1 read
      obtain ⟨_, _, _, _, _, rfl⟩ := parse_eq_ok.1 read'
      rfl
    rw [Query.compile_eq_ok] at he he' ⊢
    have scope : r.scope = q.scope := by rw [Query.scope, Query.scope, defaults]
    have scope' : q'.scope = q.scope := by rw [Query.scope, Query.scope, same]
    rw [root, scope]
    rw [scope', ← Node.compile_shift names q.size] at he'
    exact Node.compile_joined names rfl rfl he he' hjoined

/-- The keys of the right operand stay with it. -/
theorem parse_composed_sorted :
    ∃ q q' r, parse {} "a = b" = .ok q ∧ parse {} "c sortby d" = .ok q' ∧
      parse { maxDepth := 257 } "(a = b) And (c sortby d)" = .ok r ∧
      r.root = .triple { id := q.size + q'.size, height := 1 + max q.root.height q'.root.height }
        q.root { connective := .and } (q'.root.shift q.size) := by
  obtain ⟨q, read⟩ := exists_eq_ok (show (parse {} "a = b").isOk = true by decide +kernel)
  obtain ⟨q', read'⟩ := exists_eq_ok (show (parse {} "c sortby d").isOk = true by decide +kernel)
  have ended : Ended "a = b" := by
    unfold Ended
    decide +kernel
  have ended' : Ended "c sortby d" := by
    unfold Ended
    decide +kernel
  obtain ⟨-, joined, -⟩ := parse_composed rfl read ended read' ended'
  obtain ⟨r, composed, root, -⟩ := joined "And" .and (by decide)
  exact ⟨q, q', r, read, read', composed, root⟩

end ContextualQuery
