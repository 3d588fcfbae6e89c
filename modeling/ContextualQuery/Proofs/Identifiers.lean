import ContextualQuery.Proofs.Composition
import ContextualQuery.Proofs.Reading.Unambiguous
import ContextualQuery.Proofs.Search.Terms

/-! Identifiers that are written without quotes.

    An identifier between slashes falls into words, and white space between tokens does not count. So
    what ends with a word stops there, while what ends with a slash goes on with the word behind it.

            >n=info:srw/1 cat        word / word │ word        info:srw/1
            >n=info:srw/ "cat"       word /      │ quoted      info:srw/
            >n=info:srw/ cat         word / word │             info:srw/cat

    Apart from that last case an identifier means the same with and without quotes
    (`readAs_unquoted`). -/

namespace ContextualQuery

open Lexemes Reading Unicode

variable {rules : Rules} {cs : List Char} {s : String} {q : Query} {ts v : List Token} {p : Phrase}
  {next : Option Token}

/-! ### Paths -/

/-- Whether a text is made of characters that a word may hold, without a backslash. -/
def IsSegment (w : String) : Prop :=
  ∀ c ∈ w.toList, c ≠ '\\' ∧ isWordChar defaultWordChars c = true

/-- Segments as they are written, each behind a slash. -/
def pathText (ws : List String) : String := String.join (ws.map ("/" ++ ·))

/-- The tokens that they are made of. -/
def pathTokens : List String → List Token
  | [] => []
  | w :: ws => .slash :: ((if w = "" then [] else [.word w]) ++ pathTokens ws)

@[simp] theorem pathText_nil : pathText [] = "" := rfl

@[simp] theorem pathText_cons (w : String) (ws : List String) :
    pathText (w :: ws) = "/" ++ w ++ pathText ws := by
  rw [pathText, List.map_cons, String.join_cons, pathText]

theorem pathText_append (ws us : List String) : pathText (ws ++ us) = pathText ws ++ pathText us := by
  induction ws with
  | nil => simp
  | cons w ws ih => simp [ih, String.append_assoc]

theorem pathTokens_append (ws us : List String) :
    pathTokens (ws ++ us) = pathTokens ws ++ pathTokens us := by
  induction ws with
  | nil => rfl
  | cons w ws ih => simp [pathTokens, ih]

/-- A text of word characters and slashes is a word and a path. -/
theorem exists_path (spelled : ∀ c ∈ cs, c = '/' ∨ c ≠ '\\' ∧ isWordChar defaultWordChars c = true) :
    ∃ w ws, String.ofList cs = w ++ pathText ws ∧ (∀ x ∈ w :: ws, IsSegment x) ∧
      ((∃ c ∈ cs.head?, c ≠ '/') → w ≠ "") := by
  induction cs with
  | nil => exact ⟨"", [], by simp, by simp [IsSegment], by simp⟩
  | cons c cs ih =>
    obtain ⟨here, later⟩ := List.forall_mem_cons.1 spelled
    obtain ⟨w, ws, text, segments, -⟩ := ih later
    by_cases slash : c = '/'
    · subst slash
      refine ⟨"", w :: ws, ?_, List.forall_mem_cons.2 ⟨by simp [IsSegment], segments⟩, by simp⟩
      apply String.toList_injective
      simpa using congrArg String.toList text
    · obtain ⟨first, segments⟩ := List.forall_mem_cons.1 segments
      refine ⟨c.toString ++ w, ws, ?_, List.forall_mem_cons.2 ⟨?_, segments⟩, by simp⟩
      · apply String.toList_injective
        simpa using congrArg String.toList text
      · simpa [IsSegment, here.resolve_left slash] using first

theorem prints_path {ws : List String} (segments : ∀ w ∈ ws, IsSegment w) :
    Prints defaultWordChars (pathText ws) (pathTokens ws) := by
  induction ws with
  | nil => exact .nil
  | cons w ws ih =>
    obtain ⟨first, segments⟩ := List.forall_mem_cons.1 segments
    have single : Prints defaultWordChars ("/" ++ w)
        (.slash :: if w = "" then [] else [.word w]) := by
      intro more ts boundary later
      split
      next empty =>
        subst empty
        exact Takes.slash.lexes later
      next some_char =>
        have word := (Token.alone_word some_char (.of_forall first)).prints more ts boundary later
        simpa [Token.text] using Takes.slash.lexes word
    have whole := single.append (ih segments) (by cases ws <;> simp)
    rwa [pathText_cons]

theorem sequence_path {ws : List String} (ends : next.any (· == .slash) = false)
    (closed : ws.getLast? = some "" → ∀ w, next ≠ some (.word w)) :
    Sequence (· == .slash) SegmentSpelling (pathTokens ws) next (ws.map ("/" ++ ·)) := by
  induction ws with
  | nil => exact .nil ends
  | cons w ws ih =>
    have later := ih fun last => closed (by cases ws <;> simp_all)
    by_cases empty : w = ""
    · subst empty
      refine .cons (u := [.slash]) (.slash fun w => ?_) later
      cases ws with
      | nil => exact closed rfl w
      | cons v ws => simp [pathTokens]
    · have whole : pathTokens (w :: ws) = [.slash, .word w] ++ pathTokens ws := by
        simp [pathTokens, empty]
      rw [whole]
      exact .cons .word later

theorem IsSegment.getLast? {w : String} (h : IsSegment w) : w.toList.getLast? ≠ some '/' := by
  intro last
  have admitted := (h '/' (List.mem_of_getLast? last)).2
  revert admitted
  decide

/-- A path ends with a slash exactly if its last segment is empty. -/
theorem getLast?_path {w : String} {ws : List String} (segments : ∀ x ∈ w :: ws, IsSegment x) :
    (w ++ pathText ws).toList.getLast? = some '/' ↔ ws.getLast? = some "" := by
  obtain ⟨first, segments⟩ := List.forall_mem_cons.1 segments
  obtain rfl | ⟨us, v, rfl⟩ := List.eq_nil_or_concat' ws
  · simpa using first.getLast?
  · have last := (segments v (by simp)).getLast?
    by_cases empty : v = ""
    · subst empty
      simp [pathText_append]
    · have chars : (w ++ pathText (us ++ [v])).toList = (w ++ pathText us ++ "/").toList ++ v.toList := by
        simp [pathText_append]
      rw [chars, List.getLast?_append_of_ne_nil _ (by simpa using empty)]
      exact iff_of_false last (by simpa using empty)

/-! ### Declarations -/

/-- An identifier without quotes behind its name. -/
theorem prints_unquoted {n w : String} {ws : List String}
    (name : (Token.word n).Alone defaultWordChars) (some_char : w ≠ "")
    (segments : ∀ x ∈ w :: ws, IsSegment x) :
    Prints defaultWordChars (">" ++ n ++ "=" ++ (w ++ pathText ws))
      (.comparison .gt :: .word n :: .comparison .eq :: .word w :: pathTokens ws) := by
  obtain ⟨first, segments⟩ := List.forall_mem_cons.1 segments
  have word := Token.alone_word some_char (.of_forall first)
  have path : Prints defaultWordChars (w ++ pathText ws) (.word w :: pathTokens ws) :=
    word.prints.append (prints_path segments) (by cases ws <;> simp)
  refine path.named name fun more => ?_
  rw [String.toList_append, List.append_assoc]
  exact word.lexed.head rfl _

/-- The tokens of a text behind a declaration without quotes. -/
theorem Lexemes.Lexes.unquoted (h : Lexes defaultWordChars s.toList ts) {n w : String}
    {ws : List String} (name : (Token.word n).Alone defaultWordChars) (some_char : w ≠ "")
    (segments : ∀ x ∈ w :: ws, IsSegment x) :
    Lexes defaultWordChars (">" ++ n ++ "=" ++ (w ++ pathText ws) ++ " " ++ s).toList
      (.comparison .gt :: .word n :: .comparison .eq :: .word w :: (pathTokens ws ++ ts)) :=
  (prints_unquoted name some_char segments).lexes_spaced h

theorem DeclarationSpelling.unquoted (n w : String) {ws : List String}
    (ends : next.any (· == .slash) = false)
    (closed : ws.getLast? = some "" → ∀ w, next ≠ some (.word w)) :
    DeclarationSpelling rules
      (.comparison .gt :: .word n :: .comparison .eq :: .word w :: pathTokens ws) next
      (lowercase n, w ++ pathText ws) :=
  .named (.path (sequence_path ends closed))

/-- What stands behind a declaration is a query by itself, but for the names that it must not declare
    once more. -/
theorem spells_declared {d : String × String} (bound : DeclarationSpelling rules v ts.head? d) :
    Spells rules .query (v ++ ts) none p ↔ ∃ u w group body, ts = u ++ w ∧
      Sequence (· == .comparison .gt) (DeclarationSpelling rules) u w.head? group ∧
      Addable rules .empty (d :: group) ∧ Spells rules .chain w none body ∧
      p = .scope (d :: group) body := by
  constructor
  · intro h
    obtain ⟨t, v', rfl, gt⟩ := startsWith_binding _ _ _ bound
    generalize whole : t :: v' ++ ts = us at h
    cases h with
    | @query u w _ group body declared chain =>
      obtain ⟨written, addable⟩ := declared
      cases written with
      | nil ends =>
        subst whole
        simp [gt] at ends
      | @cons u u' _ d' group first rest =>
        rw [ahead_none] at first rest
        rw [← head?_append_eq_ahead] at first
        -- The first declaration that the query reads is the one that stands in front, as a
        -- declaration is read in one way only.
        obtain ⟨rfl, rfl⟩ := unique_declaration _ _ _ bound _ _ _ _ rfl
          (whole.trans (List.append_assoc u u' w)) first
        exact ⟨u', w, group, body, List.append_cancel_left (whole.trans (List.append_assoc ..)),
          rest, addable, chain, rfl⟩
  · rintro ⟨u, w, group, body, rfl, written, addable, chain, rfl⟩
    rw [head?_append_eq_ahead] at bound
    rw [← List.append_assoc]
    exact .query (.group (ahead_none w ▸ .cons bound written) addable) chain

theorem Spells.head_ne_slash (h : Spells rules .query ts none p) :
    ts.head?.any (· == .slash) = false := by
  cases ts with
  | nil => rfl
  | cons t ts =>
    by_cases slash : t = .slash
    · subst slash
      obtain ⟨_, _, _, -, spelled⟩ := h.starts_clause (by simp) rfl (by simp) (by simp)
      exact absurd rfl spelled.ne_slash.1
    · simpa using slash

/-- A word at the start of a query is not open, and no slash stands behind it. -/
theorem Spells.closed_word {w : String} {u rest : List Char}
    (h : Spells rules .query (.word w :: ts) none p)
    (taken : Takes defaultWordChars u (.word w) rest) (later : Lexes defaultWordChars rest ts) :
    Escaped (isWordChar defaultWordChars) w.toList ∧ ts.head?.any (· == .slash) = false := by
  obtain ⟨v, us, c, rfl, spelled⟩ := h.starts_clause (by simp) rfl (by simp) (by simp)
  constructor
  · cases taken with
    | word _ escaped _ => simpa using escaped
    -- An open word would be the whole query, and no term ends with an open backslash.
    | openWord _ escaped =>
      obtain ⟨rfl, rfl⟩ : v = [] ∧ us = [] := by simpa using later.eq_nil
      generalize whole : [Token.word _] = vs at spelled
      cases spelled with
      | full => simp at whole
      | alone _ searched =>
        obtain rfl := List.singleton_inj.1 whole
        obtain ⟨-, special⟩ := checkTerm_eq_ok searched
        rw [String.toList_ofList, not_special_of_open escaped] at special
        contradiction
  · have other := spelled.ne_slash.2
    rw [head?_append_eq_ahead]
    cases us <;> cases v <;> simp_all

/-! ### Readings -/

/-- What a text is read as, apart from the text itself: its tree, the number of nodes, and what is
    assumed from outside. Nothing where the text is refused. -/
def readAs (rules : Rules) (source : String) : Option (Node × Nat × PrefixMap) :=
  (parse rules source).toOption.map fun q => (q.root, q.size, q.defaults)

theorem readAs_eq_some {x : Node × Nat × PrefixMap} :
    readAs rules s = some x ↔ ∃ r, parse rules s = .ok r ∧ (r.root, r.size, r.defaults) = x := by
  rw [readAs]
  cases parse rules s <;> simp [Except.toOption]

section

variable {a b : String} {v' : List Token} {d : String × String}
  (usual : rules.wordChars = defaultWordChars)
  (lexed : Lexes defaultWordChars a.toList (v ++ ts))
  (bound : DeclarationSpelling rules v ts.head? d)
include usual lexed bound

theorem readAs_of_bound (bound' : DeclarationSpelling rules v' ts.head? d)
    (lexed' : Lexes defaultWordChars b.toList (v' ++ ts)) {x : Node × Nat × PrefixMap}
    (read : readAs rules a = some x) : readAs rules b = some x := by
  obtain ⟨r, found, rfl⟩ := readAs_eq_some.1 read
  obtain ⟨p, spelled, fits, rfl⟩ := (parse_eq_ok_of_lexes usual lexed).1 found
  have spelled' := (spells_declared bound').2 ((spells_declared bound).1 spelled)
  exact readAs_eq_some.2 ⟨_, parse_of_spells usual lexed' spelled' fits, rfl⟩

/-- How a name is bound does not matter, but only to what. -/
theorem readAs_congr (bound' : DeclarationSpelling rules v' ts.head? d)
    (lexed' : Lexes defaultWordChars b.toList (v' ++ ts)) : readAs rules a = readAs rules b :=
  Option.ext fun _ => ⟨readAs_of_bound usual lexed bound bound' lexed',
    readAs_of_bound usual lexed' bound' bound lexed⟩

/-- A declaration in front of a query adds to its root. -/
theorem root_of_bound (lexed' : Lexes defaultWordChars s.toList ts) (read' : parse rules s = .ok q)
    {n u : String} (binds : d = (lowercase n, u)) {r : Query} (read : parse rules a = .ok r) :
    r.root = q.root.mapInfo fun info => { info with prefixes := info.prefixes.insertNew n u } := by
  subst binds
  obtain ⟨p, spelled, -, rfl⟩ := (parse_eq_ok_of_lexes usual lexed).1 read
  obtain ⟨p', spelled', -, rfl⟩ := (parse_eq_ok_of_lexes usual lexed').1 read'
  obtain ⟨us, ws, group, body, rfl, written, -, chain, rfl⟩ := (spells_declared bound).1 spelled
  generalize whole : us ++ ws = vs at spelled'
  cases spelled' with
  | @query us' ws' _ group' body' declared' chain' =>
    obtain ⟨written', -⟩ := declared'
    rw [ahead_none] at written'
    -- Both readings see the same tokens behind the declaration, so they agree on group and chain.
    obtain ⟨rfl, rfl⟩ := unique_written _ _ _ written _ _ _ _ rfl whole written'
    obtain rfl := List.append_cancel_left whole
    obtain rfl : body = body' := (Spells.unique .chain _ _ _ chain [] _ [] _ rfl rfl chain').2
    exact declare_ofList_cons (lower_build body 0) n u group

end

/-- Where a slash and a word come together, the word belongs to the identifier. -/
theorem readAs_along {n w w' : String} {us : List String} (usual : rules.wordChars = defaultWordChars)
    (quotes : rules.rejectQuotedName = false)
    (query : Spells rules .query (.word w' :: ts) none p)
    (lexed : Lexes defaultWordChars s.toList (.word w' :: ts))
    (name : (Token.word n).Alone defaultWordChars) (some_char : w ≠ "")
    (segments : ∀ x ∈ w :: (us ++ [""]), IsSegment x)
    (inside : Escaped isInside (w ++ pathText (us ++ [""])).toList) :
    ∃ gap rest, s = gap ++ w' ++ rest ∧ (∀ c ∈ gap.toList, isBlank c = true) ∧
      readAs rules (">" ++ n ++ "=" ++ (w ++ pathText (us ++ [""])) ++ " " ++ s) =
        readAs rules (">" ++ n ++ "=\"" ++ (w ++ pathText (us ++ [""]) ++ w') ++ "\" " ++ rest) := by
  have bare := lexed.unquoted name some_char segments
  generalize whole : s.toList = cs at lexed
  cases lexed with
  | @cons b v _ rest _ blank taken later =>
    obtain ⟨escaped, ends⟩ := query.closed_word taken later
    obtain rfl : w' = String.ofList v := taken.text_eq
    have some_char' : String.ofList v ≠ "" := by
      simpa using List.ne_nil_of_length_pos taken.length_pos
    have text : s = String.ofList b ++ String.ofList v ++ String.ofList rest := by
      apply String.toList_injective
      simp [whole]
    -- The last segment is empty, so the word behind the blank is read as what belongs to it.
    have tokens : pathTokens (us ++ [""]) ++ .word (String.ofList v) :: ts =
        pathTokens (us ++ [String.ofList v]) ++ ts := by
      simp [pathTokens_append, pathTokens, some_char']
    have longer : w ++ pathText (us ++ [String.ofList v]) =
        w ++ pathText (us ++ [""]) ++ String.ofList v := by
      simp [pathText_append, String.append_assoc]
    have bound := @DeclarationSpelling.unquoted rules ts.head? n w (us ++ [String.ofList v]) ends
      (by simp [some_char'])
    rw [longer] at bound
    rw [tokens] at bare
    refine ⟨String.ofList b, String.ofList rest, text, by simpa using blank, ?_⟩
    refine readAs_congr usual bare bound (.quoted quotes n _ _) (Lexes.declared ?_ name ?_)
    · simpa using later
    · rw [String.toList_append]
      exact inside.append (escaped.mono fun _ => isInside_of_isWordChar)

/-- Without quotes an identifier means what it means with them, unless it ends with a slash and a word
    follows: then that word belongs to it. -/
theorem readAs_unquoted {n u : String} (usual : rules.wordChars = defaultWordChars)
    (quotes : rules.rejectQuotedName = false) (read : parse rules s = .ok q) (some_char : n ≠ "")
    (letters : ∀ c ∈ n.toList, c.isAlphanum = true)
    (spelled : ∀ c ∈ u.toList, c = '/' ∨ c ≠ '\\' ∧ isWordChar defaultWordChars c = true)
    (front : ∃ c ∈ u.toList.head?, c ≠ '/') :
    (u.toList.getLast? ≠ some '/' ∨
        (∀ w, (ofText rules.wordChars s).current ≠ some (.word w)) →
      readAs rules (">" ++ n ++ "=" ++ u ++ " " ++ s) =
          readAs rules (">" ++ n ++ "=\"" ++ u ++ "\" " ++ s) ∧
        ∀ r, parse rules (">" ++ n ++ "=" ++ u ++ " " ++ s) = .ok r →
          r.root = q.root.mapInfo fun info =>
            { info with prefixes := info.prefixes.insertNew n u }) ∧
    (u.toList.getLast? = some '/' →
      ∀ w, (ofText rules.wordChars s).current = some (.word w) →
        ∃ gap rest, s = gap ++ w ++ rest ∧ (∀ c ∈ gap.toList, isBlank c = true) ∧
          readAs rules (">" ++ n ++ "=" ++ u ++ " " ++ s) =
            readAs rules (">" ++ n ++ "=\"" ++ (u ++ w) ++ "\" " ++ rest)) := by
  obtain ⟨ts, p, tokens, query, -⟩ := parse_eq_ok.1 read
  rw [usual] at tokens
  rw [usual, tokens]
  have lexed := ofText_eq.1 tokens
  have inside : Escaped isInside u.toList := by
    refine .of_forall fun c mem => ?_
    rcases spelled c mem with rfl | ⟨plain, admitted⟩
    · decide
    · exact ⟨plain, isInside_of_isWordChar admitted⟩
  have name : (Token.word n).Alone defaultWordChars := Token.alone_word some_char
    (escaped_of_isAlphanumeric fun c hc => isAlphanumeric_of_isAlphanum (letters c hc))
  obtain ⟨w, ws, path, segments, starts⟩ := exists_path spelled
  have first : w ≠ "" := starts front
  rw [String.ofList_toList] at path
  subst path
  simp only [ne_eq, getLast?_path segments]
  constructor
  · intro apart
    have bound := @DeclarationSpelling.unquoted rules ts.head? n w ws query.head_ne_slash fun last =>
      apart.resolve_left (not_not_intro last)
    have bare := lexed.unquoted name first segments
    exact ⟨readAs_congr usual bare bound (.quoted quotes n _ _) (lexed.declared name inside),
      fun r read' => root_of_bound usual bare bound lexed read rfl read'⟩
  -- The one case in which quotes matter: `u` ends with a slash and `s` starts with a word.
  · intro last w' current
    obtain ⟨us, rfl⟩ := List.getLast?_eq_some_iff.1 last
    obtain ⟨ts, rfl⟩ := List.head?_eq_some_iff.1 current
    exact readAs_along usual quotes query lexed name first segments inside

/-- The same identifier in front of a quoted term and in front of a word. -/
theorem readAs_unquoted_slash :
    readAs {} ">n=info:srw/1/ \"cat\"" = readAs {} ">n=\"info:srw/1/\" \"cat\"" ∧
      ∃ gap rest, " cat = dog" = gap ++ "cat" ++ rest ∧ (∀ c ∈ gap.toList, isBlank c = true) ∧
        readAs {} ">n=info:srw/1/  cat = dog" = readAs {} (">n=\"info:srw/1/cat\" " ++ rest) := by
  have spelled : ∀ c ∈ "info:srw/1/".toList,
      c = '/' ∨ c ≠ '\\' ∧ isWordChar defaultWordChars c = true := by simp; decide
  have letters : ∀ c ∈ "n".toList, c.isAlphanum = true := by simp
  obtain ⟨_, quoted⟩ := exists_eq_ok (show (parse {} "\"cat\"").isOk = true by decide +kernel)
  obtain ⟨_, word⟩ := exists_eq_ok (show (parse {} " cat = dog").isOk = true by decide +kernel)
  obtain ⟨apart, -⟩ := @readAs_unquoted {} _ _ "n" _ rfl rfl quoted (by simp) letters spelled
    ⟨'i', rfl, by decide⟩
  obtain ⟨-, along⟩ := @readAs_unquoted {} _ _ "n" _ rfl rfl word (by simp) letters spelled
    ⟨'i', rfl, by decide⟩
  have front : (ofText defaultWordChars "\"cat\"").current = some (.quoted "\"cat\"") := by
    decide +kernel
  refine ⟨(apart (.inr fun w h => ?_)).1, along rfl "cat" (by decide +kernel)⟩
  exact absurd (front.symm.trans h) (by simp)

/-- A query that is behind the identifier with quotes, and is not behind it without them. -/
theorem readAs_unquoted_word : (parse {} "cat").isOk = true ∧
    (readAs {} ">n=\"a/\" cat").isSome = true ∧ (readAs {} ">n=a/ cat").isSome = false := by
  decide +kernel

end ContextualQuery
