import ContextualQuery.Proofs.Reading.Unambiguous

/-! How far sort keys reach.

    In the grammar a chain may be sorted between its operands as well as behind them:

        chain  :=  operand (boolean operand | sortby key+)*

    It leaves open whether a boolean word behind a key is one more key or goes on with the chain.

        cat sortby title and dog      cat sortby [title, and, dog]      all texts are keys
                                      (cat sortby [title]) and dog      keys end in front of booleans

    Reading takes every text for a key. So nothing ever goes on behind sort keys, and only whole chains
    are sorted. What is read is what the other choice makes of the tokens exactly if none of the keys
    but the first ones of their lists is a boolean word (`sorted_last_of_parse`). -/

namespace ContextualQuery

open Reading

/-! ### Sort keys -/

/-- One key and more keys behind it, as long as the next token can start one. -/
inductive KeyList (rules : Rules) (p : Token → Bool) (S : Spelling Index) : Spelling (List Index)
  | keys {u v next k ks} (first : KeySpelling rules u (ahead v next) k)
      (more : Sequence p S v next ks) : KeyList rules p S (u ++ v) next (k :: ks)

/-- A sort key that is no boolean word. -/
def PlainKey (rules : Rules) : Spelling Index :=
  fun u next k => KeySpelling rules u next k ∧ u.head?.any Token.isBoolean = false

/-- Keys, where every text is one. -/
abbrev AllKeys (rules : Rules) : Spelling (List Index) :=
  KeyList rules Token.isText (KeySpelling rules)

/-- Keys, where every text is one, but none behind the first is a boolean word. -/
abbrev PlainKeys (rules : Rules) : Spelling (List Index) :=
  KeyList rules Token.isText (PlainKey rules)

/-- Keys that end in front of boolean words, but for the first one, which has to be there. -/
abbrev KeysBeforeBoolean (rules : Rules) : Spelling (List Index) :=
  KeyList rules (fun t => t.isText && !t.isBoolean) (PlainKey rules)

section
variable {rules : Rules} {u : List Token} {next : Option Token} {keys : List Index}

theorem allKeys_iff : AllKeys rules u next keys ↔ keys ≠ [] ∧ KeysSpelling rules u next keys := by
  constructor
  · rintro ⟨first, more⟩
    exact ⟨List.cons_ne_nil _ _, .cons first more⟩
  · rintro ⟨some_key, spelled⟩
    cases spelled with
    | nil => exact absurd rfl some_key
    | cons first more => exact .keys first more

theorem AllKeys.ends (h : AllKeys rules u next keys) : next.any Token.isText = false := by
  obtain ⟨-, more⟩ := h
  exact more.ends

theorem PlainKeys.all (h : PlainKeys rules u next keys) : AllKeys rules u next keys := by
  obtain ⟨first, more⟩ := h
  exact .keys first (more.imp id fun _ _ _ plain => plain.1)

theorem PlainKeys.beforeBoolean (h : PlainKeys rules u next keys) :
    KeysBeforeBoolean rules u next keys := by
  obtain ⟨first, more⟩ := h
  refine .keys first (more.imp ?_ fun _ _ _ plain => plain)
  cases next <;> simp +contextual

/-- Keys that end in front of anything but a boolean word end where every text is a key. -/
theorem KeysBeforeBoolean.plain (h : KeysBeforeBoolean rules u next keys)
    (ends : next.any Token.isBoolean = false) : PlainKeys rules u next keys := by
  obtain ⟨first, more⟩ := h
  refine .keys first (more.imp ?_ fun _ _ _ plain => plain)
  cases next <;> simp_all

end

/-! ### Chains that are sorted anywhere -/

/-- Which tokens spell a phrase, given the token behind them, where a chain may be sorted between its
    operands and sort keys are spelled as `K` says. -/
inductive SpellsBy (rules : Rules) (K : Spelling (List Index)) : Part → Spelling Phrase
  | query {u v next group body} (declared : GroupSpelling rules u (ahead v next) group)
      (chain : SpellsBy rules K .chain v next body) :
      SpellsBy rules K .query (u ++ v) next (.scope group body)
  | chain {u v next left p} (first : SpellsBy rules K .operand u (ahead v next) left)
      (links : SpellsBy rules K (.links left) v next p) : SpellsBy rules K .chain (u ++ v) next p
  | done {left next} (ends : next.any Token.isBoolean = false)
      (unsorted : next.any (Token.isWord sortWord) = false) :
      SpellsBy rules K (.links left) [] next left
  | link {u v w next left boolean right p} (joined : BooleanSpelling u (ahead (v ++ w) next) boolean)
      (operand : SpellsBy rules K .operand v (ahead w next) right)
      (links : SpellsBy rules K (.links (.join left boolean right)) w next p) :
      SpellsBy rules K (.links left) (u ++ (v ++ w)) next p
  | sort {t u v next left keys p} (sortby : t.isWord sortWord = true)
      (sorting : K u (ahead v next) keys)
      (links : SpellsBy rules K (.links (.sort left keys)) v next p) :
      SpellsBy rules K (.links left) (t :: (u ++ v)) next p
  | paren {u next p} (query : SpellsBy rules K .query u (some .closeParen) p) :
      SpellsBy rules K .operand (.openParen :: (u ++ [.closeParen])) next p
  | enter {u v next group body} (declared : GroupSpelling rules u (ahead v next) group)
      (some_name : group ≠ []) (chain : SpellsBy rules K .chain v next body) :
      SpellsBy rules K .operand (u ++ v) next (.scope group body)
  | clause {u next c} (clause : ClauseSpelling rules u next c) :
      SpellsBy rules K .operand u next (.clause c)

variable {rules : Rules} {K K' : Spelling (List Index)} {part : Part} {u : List Token}
  {next : Option Token} {left p : Phrase}

theorem SpellsBy.imp (each : ∀ u next keys, K u next keys → K' u next keys)
    (h : SpellsBy rules K part u next p) : SpellsBy rules K' part u next p := by
  induction h with
  | query declared _ ih => exact .query declared ih
  | chain _ _ ih ih' => exact .chain ih ih'
  | done ends unsorted => exact .done ends unsorted
  | link joined _ _ ih ih' => exact .link joined ih ih'
  | sort sortby sorting _ ih => exact .sort sortby (each _ _ _ sorting) ih
  | paren _ ih => exact .paren ih
  | enter declared some_name _ ih => exact .enter declared some_name ih
  | clause spelled => exact .clause spelled

/-! ### What is read -/

/-- No chain goes on in front of what is no text. -/
theorem ends_of_not_text (ends : next.any Token.isText = false) :
    next.any Token.isBoolean = false ∧ next.any (Token.isWord sortWord) = false := by
  cases next with
  | none => exact ⟨rfl, rfl⟩
  | some t =>
    rw [Option.any_some, Bool.eq_false_iff] at ends
    constructor <;> rw [Option.any_some, Bool.eq_false_iff] <;> intro h
    · exact ends (Token.isText_of_isBoolean h)
    · exact ends (Token.isText_of_isWord h)

theorem Spells.links_ends (h : Spells rules (.links left) u next p) :
    next.any Token.isBoolean = false := by
  generalize chain : Part.links left = part at h
  induction h generalizing left with
  | done ends => exact ends
  | link _ _ _ _ ih => exact ih rfl
  | _ => cases chain

/-- Whether tokens spell a phrase where all texts are keys. Links do so in front of whatever may follow
    the phrase that they end with. -/
def Part.Admits (rules : Rules) (u : List Token) (next : Option Token) (p : Phrase) : Part → Prop
  | .links left => ∀ v next' p', ahead v next' = next →
    SpellsBy rules (AllKeys rules) (.links p) v next' p' →
    SpellsBy rules (AllKeys rules) (.links left) (u ++ v) next' p'
  | part => SpellsBy rules (AllKeys rules) part u next p

theorem Spells.admits (h : Spells rules part u next p) : part.Admits rules u next p := by
  induction h with
  | query declared _ ih => exact SpellsBy.query declared ih
  | @chain u v next left p _ links unsorted ih ih' =>
    have behind := ih' [] next p rfl (.done links.links_ends unsorted)
    rw [List.append_nil] at behind
    exact SpellsBy.chain ih behind
  | @sorted u v t w next left p keys _ _ sortby some_key sorting ih ih' =>
    obtain ⟨ends, unsorted⟩ := ends_of_not_text sorting.ends
    -- the keys are one more link, and the last one
    have behind := ih' (t :: (w ++ [])) next (.sort p keys) rfl
      (.sort sortby (allKeys_iff.2 ⟨some_key, sorting⟩) (.done ends unsorted))
    rw [List.append_nil] at behind
    have first : SpellsBy rules (AllKeys rules) .operand u (ahead (v ++ t :: w) next) left := by
      rw [ahead_append]
      exact ih
    rw [List.append_assoc]
    exact SpellsBy.chain first behind
  | done => exact fun v next' p' _ behind => behind
  | @link u v w next left boolean right p joined _ _ ih ih' =>
    rintro x next' p' rfl behind
    rw [← ahead_append] at joined ih
    rw [List.append_assoc] at joined
    rw [List.append_assoc, List.append_assoc]
    exact .link joined ih (ih' x next' p' rfl behind)
  | paren _ ih => exact SpellsBy.paren ih
  | enter declared some_name _ ih => exact SpellsBy.enter declared some_name ih
  | clause spelled => exact SpellsBy.clause spelled

/-- Behind keys that end in front of what is no text, no chain goes on. -/
theorem SpellsBy.eq_of_ends (h : SpellsBy rules K (.links left) u next p)
    (ends : (ahead u next).any Token.isText = false) : u = [] ∧ p = left := by
  obtain ⟨joins, sorts⟩ := ends_of_not_text ends
  cases h with
  | done => exact ⟨rfl, rfl⟩
  | link joined _ _ =>
    obtain ⟨t, v, rfl, joins'⟩ := joined.head
    simp [joins'] at joins
  | sort sortby _ _ => simp [sortby] at sorts

/-- What links spell in the end: links without sort keys, and a list of keys or none. -/
def Part.Ends (rules : Rules) (u : List Token) (next : Option Token) (p : Phrase) : Part → Prop
  | .links left =>
    Spells rules (.links left) u next p ∧ next.any (Token.isWord sortWord) = false ∨
    ∃ v t w body keys, u = v ++ t :: w ∧ p = .sort body keys ∧
      Spells rules (.links left) v (some t) body ∧ t.isWord sortWord = true ∧
      AllKeys rules w next keys
  | part => Spells rules part u next p

theorem SpellsBy.ends (h : SpellsBy rules (AllKeys rules) part u next p) :
    part.Ends rules u next p := by
  induction h with
  | query declared _ ih => exact Spells.query declared ih
  | chain _ _ ih ih' =>
    obtain ⟨links, unsorted⟩ | ⟨v, t, w, body, keys, rfl, rfl, links, sortby, sorting⟩ := ih'
    · exact Spells.chain ih links unsorted
    · obtain ⟨some_key, spelled⟩ := allKeys_iff.1 sorting
      rw [ahead_append, ahead_cons] at ih
      rw [← List.append_assoc]
      exact Spells.sorted ih links sortby some_key spelled
  | done ends unsorted => exact .inl ⟨.done ends, unsorted⟩
  | link joined _ _ ih ih' =>
    obtain ⟨links, unsorted⟩ | ⟨v, t, w, body, keys, rfl, rfl, links, sortby, sorting⟩ := ih'
    · exact .inl ⟨.link joined ih links, unsorted⟩
    · rw [← List.append_assoc, ahead_append, ahead_cons] at joined
      rw [ahead_append, ahead_cons] at ih
      refine .inr ⟨_, t, w, body, keys, ?_, rfl, .link joined ih links, sortby, sorting⟩
      simp
  -- The keys take every text in sight, so no boolean is left and the chain ends with them.
  | @sort t u v next left keys p sortby sorting links ih =>
    obtain ⟨rfl, rfl⟩ := links.eq_of_ends sorting.ends
    have other : (some t).any Token.isBoolean = false := Token.isBoolean_of_sortWord sortby
    exact .inr ⟨[], t, u, left, keys, by simp, rfl, .done other, sortby, sorting⟩
  | paren _ ih => exact Spells.paren ih
  | enter declared some_name _ ih => exact Spells.enter declared some_name ih
  | clause spelled => exact Spells.clause spelled

/-- What is read is what the grammar makes of tokens where all texts are keys. -/
theorem spellsBy_allKeys_iff {ts : List Token} :
    SpellsBy rules (AllKeys rules) .query ts none p ↔ Spells rules .query ts none p :=
  ⟨SpellsBy.ends, Spells.admits⟩

/-! ### Sorted chains -/

namespace Phrase

/-- Whether a phrase ends with sort keys of its own. -/
def isSort : Phrase → Bool
  | .sort .. => true
  | _ => false

/-- Whether sort keys belong to whole chains only: what is sorted is neither joined nor sorted once
    more, unless it has a scope of its own. -/
def SortedLast : Phrase → Prop
  | .clause _ => True
  | .join left _ right =>
    left.isSort = false ∧ right.isSort = false ∧ left.SortedLast ∧ right.SortedLast
  | .sort body _ => body.isSort = false ∧ body.SortedLast
  | .scope _ body => body.SortedLast

end Phrase

/-- Only whole chains are sorted in what is read. -/
theorem Spells.sortedLast (h : Spells rules part u next p) :
    (∀ left, part = .links left → left.isSort = false ∧ left.SortedLast) →
      p.SortedLast ∧ (part ≠ .chain → p.isSort = false) := by
  induction h with
  | query _ _ ih | enter _ _ _ ih => exact fun _ => ⟨(ih (by simp)).1, fun _ => rfl⟩
  | chain _ _ _ ih ih' =>
    intro _
    obtain ⟨last, operand⟩ := ih (by simp)
    refine ⟨(ih' fun left h => ?_).1, fun h => absurd rfl h⟩
    cases h
    exact ⟨operand (by simp), last⟩
  | sorted _ _ _ _ _ ih ih' =>
    intro _
    obtain ⟨last, operand⟩ := ih (by simp)
    obtain ⟨last', links⟩ := ih' fun left h => by cases h; exact ⟨operand (by simp), last⟩
    exact ⟨⟨links (by simp), last'⟩, fun h => absurd rfl h⟩
  | done => exact fun h => ⟨(h _ rfl).2, fun _ => (h _ rfl).1⟩
  | link _ _ _ ih ih' =>
    intro h
    obtain ⟨plain, last⟩ := h _ rfl
    obtain ⟨last', operand⟩ := ih (by simp)
    obtain ⟨last'', links⟩ := ih' fun left h => by
      cases h
      exact ⟨rfl, plain, operand (by simp), last, last'⟩
    exact ⟨last'', fun _ => links (by simp)⟩
  | paren _ ih =>
    intro _
    obtain ⟨last, query⟩ := ih (by simp)
    exact ⟨last, fun _ => query (by simp)⟩
  | clause => exact fun _ => ⟨trivial, fun _ => rfl⟩

/-- Links keep what they start with. -/
theorem SpellsBy.sortedLast_left (h : SpellsBy rules K (.links left) u next p)
    (last : p.SortedLast) : left.SortedLast := by
  generalize links : Part.links left = part at h
  induction h generalizing left with
  | done =>
    cases links
    exact last
  | link _ _ _ _ ih =>
    cases links
    exact (ih last rfl).2.2.1
  | sort _ _ _ ih =>
    cases links
    exact (ih last rfl).2
  | _ => cases links

/-- Where keys end in front of booleans and still only whole chains are sorted, it is no matter where
    keys end. -/
theorem SpellsBy.plain (h : SpellsBy rules (KeysBeforeBoolean rules) part u next p) :
    p.SortedLast → SpellsBy rules (PlainKeys rules) part u next p := by
  induction h with
  | query declared _ ih => exact fun last => .query declared (ih last)
  | chain _ links ih ih' => exact fun last => .chain (ih (links.sortedLast_left last)) (ih' last)
  | done ends unsorted => exact fun _ => .done ends unsorted
  | link joined _ links ih ih' =>
    intro last
    obtain ⟨-, -, -, right⟩ := links.sortedLast_left last
    exact .link joined (ih right) (ih' last)
  | sort sortby sorting links ih =>
    intro last
    cases links with
    -- whole chains are sorted, so no boolean follows the keys
    | done ends unsorted => exact .sort sortby (sorting.plain ends) (.done ends unsorted)
    | link _ _ links' => exact absurd (links'.sortedLast_left last).1 (by simp [Phrase.isSort])
    | sort _ _ links' => exact absurd (links'.sortedLast_left last).1 (by simp [Phrase.isSort])
  | paren _ ih => exact fun last => .paren (ih last)
  | enter declared some_name _ ih => exact fun last => .enter declared some_name (ih last)
  | clause spelled => exact fun _ => .clause spelled

/-! ### Queries -/

/-- What is read is the only phrase that the tokens spell where all texts are keys, and only whole
    chains are sorted in it. No key but the first of its list is a boolean word in it exactly if the
    tokens also spell it where keys end in front of booleans. Whatever else they spell there goes on
    behind sort keys. -/
theorem sorted_last_of_parse {source : String} {q : Query} (read : parse rules source = .ok q) :
    ∃ ts p, Lexemes.ofText rules.wordChars source = { tokens := ts } ∧ q.root = p.build 0 ∧
      (∀ p', SpellsBy rules (AllKeys rules) .query ts none p' ↔ p' = p) ∧ p.SortedLast ∧
      (SpellsBy rules (PlainKeys rules) .query ts none p ↔
        SpellsBy rules (KeysBeforeBoolean rules) .query ts none p) ∧
      ∀ p', SpellsBy rules (KeysBeforeBoolean rules) .query ts none p' →
        (p' = p ↔ p'.SortedLast) := by
  obtain ⟨ts, p, lexed, spelled, -, rfl⟩ := parse_eq_ok.1 read
  have last : p.SortedLast := (spelled.sortedLast (by simp)).1
  have only (p' : Phrase) : SpellsBy rules (AllKeys rules) .query ts none p' ↔ p' = p := by
    rw [spellsBy_allKeys_iff]
    constructor
    · exact fun spelled' => spelled'.eq spelled
    · rintro rfl
      exact spelled
  refine ⟨ts, p, lexed, rfl, only, last, ⟨?_, fun other => other.plain last⟩, fun p' other => ⟨?_, ?_⟩⟩
  · exact SpellsBy.imp fun _ _ _ plain => plain.beforeBoolean
  · rintro rfl
    exact last
  · exact fun last' => (only p').1 ((other.plain last').imp fun _ _ _ plain => plain.all)

theorem SpellsBy.undeclared (chain : SpellsBy rules K .chain u next p)
    (other : (ahead u next).any (· == .comparison .gt) = false) :
    SpellsBy rules K .query u next (.scope [] p) :=
  .query (u := []) ⟨.nil other, trivial⟩ chain

theorem KeySpelling.of_word {s : String} (split : splitName s = .ok ⟨"", s⟩)
    (ends : next.any (· == .slash) = false) : KeySpelling rules [.word s] next ⟨⟨"", s⟩, []⟩ :=
  .key (.word split) (.nil ends)

/-- A boolean word may be the first key. -/
theorem sorted_last_of_parse_first : ∃ q p ts,
    parse {} "(a sortby and b) or c" = .ok q ∧ q.root = p.build 0 ∧
      ts = [.openParen, .word "a", .word "sortby", .word "and", .word "b", .closeParen, .word "or",
        .word "c"] ∧
      SpellsBy {} (PlainKeys {}) .query ts none p ∧
      SpellsBy {} (KeysBeforeBoolean {}) .query ts none p := by
  obtain ⟨q, read⟩ := exists_eq_ok (show (parse {} "(a sortby and b) or c").isOk = true by
    decide +kernel)
  obtain ⟨ts, p, lexed, root, only, -, alike, -⟩ := sorted_last_of_parse read
  have tokens : ts = [.openParen, .word "a", .word "sortby", .word "and", .word "b", .closeParen,
      .word "or", .word "c"] := by
    have known : (Lexemes.ofText ({} : Rules).wordChars "(a sortby and b) or c").tokens =
        [.openParen, .word "a", .word "sortby", .word "and", .word "b", .closeParen, .word "or",
          .word "c"] := by decide +kernel
    rwa [lexed] at known
  have keys : PlainKeys {} [.word "and", .word "b"] (some .closeParen)
      [⟨⟨"", "and"⟩, []⟩, ⟨⟨"", "b"⟩, []⟩] := by
    have second : PlainKey {} [.word "b"] (some .closeParen) ⟨⟨"", "b"⟩, []⟩ :=
      ⟨.of_word rfl rfl, rfl⟩
    exact .keys (.of_word rfl rfl) (.cons (v := []) second (.nil rfl))
  have inside : SpellsBy {} (PlainKeys {}) .chain [.word "a", .word "sortby", .word "and", .word "b"]
      (some .closeParen) (.sort (.clause (.ofTerm ⟨"a"⟩)) [⟨⟨"", "and"⟩, []⟩, ⟨⟨"", "b"⟩, []⟩]) :=
    .chain (.clause (.alone rfl rfl)) (.sort (v := []) rfl keys (.done rfl rfl))
  have link : SpellsBy {} (PlainKeys {}) .operand [.openParen, .word "a", .word "sortby",
      .word "and", .word "b", .closeParen] (some (.word "or")) _ :=
    .paren (inside.undeclared rfl)
  have or : BooleanSpelling [.word "or"] (some (.word "c")) ⟨.or, []⟩ := .word rfl (.nil rfl)
  have operand : SpellsBy {} (PlainKeys {}) .operand [.word "c"] none (.clause (.ofTerm ⟨"c"⟩)) :=
    .clause (.alone rfl rfl)
  have plain := (SpellsBy.chain link (.link or operand (.done rfl rfl))).undeclared rfl
  subst tokens
  obtain rfl := (only _).1 (plain.imp fun _ _ _ keys => keys.all)
  exact ⟨q, _, _, read, root, rfl, plain, alike.1 plain⟩

/-- A boolean word and the term behind it are taken for keys, where the grammar may go on. -/
theorem keys_past_boolean : ∃ q p ts,
    parse {} "cat sortby title and dog" = .ok q ∧
      Lexemes.ofText defaultWordChars "cat sortby title and dog" = { tokens := ts } ∧
      ts = [.word "cat", .word "sortby", .word "title", .word "and", .word "dog"] ∧
      q.root.clauses.length = 1 ∧
      q.root.sortKeys.map (·.name) = [⟨"", "title"⟩, ⟨"", "and"⟩, ⟨"", "dog"⟩] ∧
      SpellsBy {} (KeysBeforeBoolean {}) .query ts none p ∧ (p.build 0).clauses.length = 2 := by
  obtain ⟨q, read, known⟩ := exists_eq_ok_of_any (x := parse {} "cat sortby title and dog")
    (p := fun q => q.root.clauses.length == 1 &&
      q.root.sortKeys.map (·.name) == [⟨"", "title"⟩, ⟨"", "and"⟩, ⟨"", "dog"⟩])
    (by decide +kernel)
  simp only [Bool.and_eq_true, beq_iff_eq] at known
  have lexed : Lexemes.ofText defaultWordChars "cat sortby title and dog" = { tokens :=
      [.word "cat", .word "sortby", .word "title", .word "and", .word "dog"] } := by decide +kernel
  have key : KeysBeforeBoolean {} [.word "title"] (some (.word "and")) [⟨⟨"", "title"⟩, []⟩] :=
    .keys (v := []) (.of_word rfl rfl) (.nil rfl)
  have cat : SpellsBy {} (KeysBeforeBoolean {}) .operand [.word "cat"] (some (.word "sortby"))
      (.clause (.ofTerm ⟨"cat"⟩)) := .clause (.alone rfl rfl)
  have dog : SpellsBy {} (KeysBeforeBoolean {}) .operand [.word "dog"] none
      (.clause (.ofTerm ⟨"dog"⟩)) := .clause (.alone rfl rfl)
  have and : BooleanSpelling [.word "and"] (some (.word "dog")) ⟨.and, []⟩ := .word rfl (.nil rfl)
  have chain := SpellsBy.chain cat
    (.sort (t := .word "sortby") rfl key (.link and dog (.done rfl rfl)))
  exact ⟨q, _, _, read, lexed, rfl, known.1, known.2, chain.undeclared rfl, rfl⟩

end ContextualQuery
