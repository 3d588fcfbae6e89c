import ContextualQuery.Proofs.Duplicates
import ContextualQuery.Proofs.Lexing.Splitting
import ContextualQuery.Proofs.Reading.Conduct

/-! What is said of a text is written with the characters of the text.

    Reports on a text cite parts of it, some of them in lower case, between words of their own. So a
    class of characters that holds the text holds all that is said of it, if it is closed in that way
    (`Alphabet`). Reading a part keeps to a class in what it returns and in the faults that it finds
    (`Keeping`); like the conduct of reading this is closed under the ways in which readings are put
    together, and then it takes a line or two for each part. -/

namespace ContextualQuery

open Unicode

/-- A class of characters that holds what reports are written with, and with a character what it
    becomes in lower case. -/
structure Alphabet (P : Char → Prop) : Prop where
  ascii : ∀ c : Char, 0x20 ≤ c.toNat → c.toNat < 0x7F → P c
  lower : ∀ before c after, P c → ∀ d ∈ lowerChar before c after, P d

/-- Whether all characters of a text are in a class. -/
def Within (P : Char → Prop) (s : String) : Prop := ∀ c ∈ s.toList, P c

variable {P : Char → Prop} {s t : String}

/-! ### Texts -/

theorem within_empty : Within P "" := by
  rintro c ⟨⟩

/-- A text is in a class if its pieces are. -/
theorem within_append : Within P (s ++ t) ↔ Within P s ∧ Within P t := by
  rw [Within, String.toList_append, List.forall_mem_append, Within, Within]

theorem within_join {ss : List String} : Within P (String.join ss) ↔ ∀ s ∈ ss, Within P s := by
  induction ss with
  | nil => simp [Within]
  | cons s ss ih => rw [String.join_cons, within_append, ih, List.forall_mem_cons]

theorem within_ofList {cs : List Char} : Within P (String.ofList cs) ↔ ∀ c ∈ cs, P c := by
  rw [Within, String.toList_ofList]

namespace Alphabet

variable (a : Alphabet P)
include a

/-- What a report says besides citing is printable ASCII. -/
theorem within_ascii {cs : List Char}
    (all : cs.all (fun c => 0x20 ≤ c.toNat && c.toNat < 0x7F) = true) :
    Within P (String.ofList cs) := by
  refine within_ofList.2 fun c hc => ?_
  have printable := List.all_eq_true.1 all c hc
  rw [Bool.and_eq_true, decide_eq_true_eq, decide_eq_true_eq] at printable
  exact a.ascii c printable.1 printable.2

theorem within_of_ascii (all : s.toList.all (fun c => 0x20 ≤ c.toNat && c.toNat < 0x7F) = true) :
    Within P s := by
  rw [← String.ofList_toList (s := s)]
  exact a.within_ascii all

/-- A class that is closed under lower case holds the lower-cased text as well. -/
theorem within_lowercase (h : Within P s) : Within P (lowercase s) := by
  have chars : ∀ before cs, (∀ c ∈ cs, P c) → ∀ d ∈ lowerAfter before cs, P d := by
    intro before cs
    induction cs generalizing before with
    | nil => exact fun _ _ hd => nomatch hd
    | cons c cs ih =>
      intro all
      obtain ⟨first, rest⟩ := List.forall_mem_cons.1 all
      exact List.forall_mem_append.2 ⟨a.lower before c cs first, ih (c :: before) rest⟩
  rw [Within, toList_lowercase]
  exact chars [] _ h

end Alphabet

/-- What stands between quotes is part of the text. -/
theorem Within.unquote (h : Within P s) : Within P (Text.unquote s) := by
  unfold Text.unquote Text.betweenQuotes?
  split
  next rest chars =>
    split
    · rw [Option.map_some, Option.getD_some, within_ofList]
      intro c hc
      exact h c (chars ▸ List.mem_cons_of_mem _ (List.dropLast_subset _ hc))
    · exact h
  · exact h

/-! ### Faults -/

/-- The part of a text that a fault cites. -/
def Fault.cited : Fault → String
  | .tooDeep | .endBeforeTerm | .emptyModifier | .noSortKeys => ""
  | .unterminated text | .quotedName text => text
  | .leftover found | .bareOperator found => found.text
  | .unexpected found | .incompleteClause found | .noPrefixName found | .noIdentifier found
  | .noIndex found | .noRelation found | .noModifierName found | .noModifierValue found
  | .noTerm found => textOf found
  | .duplicatePrefix name | .severalDots name | .emptySet name => name
  | .onlyAnchors term | .emptyTerm term | .badEscape term => term

/-- A report says what its fault cites, and otherwise words of its own. -/
theorem within_details (a : Alphabet P) {f : Fault} (h : Within P f.cited) : Within P f.details := by
  cases f with
  | tooDeep | endBeforeTerm | emptyModifier | noSortKeys => exact a.within_ascii (by decide)
  | unterminated | quotedName | bareOperator | unexpected | emptyTerm | badEscape => exact h
  | leftover =>
    exact within_append.2 ⟨within_append.2 ⟨a.within_ascii (by decide), h⟩, a.within_ascii (by decide)⟩
  | _ => exact within_append.2 ⟨a.within_ascii (by decide), h⟩

/-- A report cites the token in sight, or nothing at the end of the text. -/
theorem within_textOf {found : Option Token} (h : ∀ t ∈ found, Within P t.text) :
    Within P (Fault.textOf found) := by
  cases found with
  | none => exact within_empty
  | some t => exact h t rfl

namespace Reading

variable {α β : Type} {rules : Rules}

/-- A name with two dots, or with a dot in front, is cited as it was split. -/
theorem cited_of_splitName {s : String} {f : Fault} (h : splitName s = .error f) : f.cited = s := by
  unfold splitName at h
  split at h
  · split at h <;> cases h
    rfl
  · cases h
  · cases h
    rfl

/-- Dropping backslashes leaves some of the characters in their order. -/
theorem unescapeQuotes_sublist (cs : List Char) : (unescapeQuotes cs).Sublist cs := by
  induction cs using unescapeQuotes.induct with
  | case1 rest ih => exact (ih.cons_cons '"').cons '\\'
  | case2 c rest other ih =>
    rw [unescapeQuotes.eq_2 _ _ other]
    exact ih.cons_cons c
  | case3 => exact .slnil

/-- A refused term is cited with its quotes, or without them where an escape is at fault. -/
theorem within_cited_of_checkTerm {raw inner : String} {f : Fault} (hraw : Within P raw)
    (hinner : Within P inner) (h : checkTerm rules raw inner = .error f) : Within P f.cited := by
  unfold checkTerm at h
  split at h
  · cases h
    exact hraw
  · split at h
    · cases h
      exact hraw
    · split at h <;> cases h
      exact hinner

/-- What stands where a term is asked for is cited as a token or as a term. -/
theorem within_cited_of_termOf {found : Option Token} {f : Fault}
    (hfound : ∀ t ∈ found, Within P t.text) (h : termOf rules found = .error f) :
    Within P f.cited := by
  unfold termOf at h
  split at h
  case h_3 => exact within_cited_of_checkTerm (hfound _ rfl) (hfound _ rfl) h
  case h_4 s =>
    refine within_cited_of_checkTerm (hfound _ rfl) (within_ofList.2 fun c hc => ?_) h
    exact (hfound (.quoted s) rfl).unquote c ((unescapeQuotes_sublist _).subset hc)
  case h_5 => exact within_cited_of_checkTerm (hfound _ rfl) (hfound _ rfl) h
  case h_6 =>
    cases h
    exact within_textOf hfound
  all_goals
    cases h
    exact hfound _ rfl

/-- Whether what is left of a text is in a class. -/
def State.Within (P : Char → Prop) (s : State) : Prop :=
  (∀ t ∈ s.lexemes.tokens, ContextualQuery.Within P t.text) ∧
    ∀ text ∈ s.lexemes.unterminated, ContextualQuery.Within P text

/-- Whether a reading returns values as asked and cites nothing but characters of a class, as long as
    what it reads is in the class. -/
def Keeping (P : Char → Prop) (V : α → Prop) (m : Reading α) : Prop :=
  ∀ s : State, s.Within P →
    Ends (fun x t => V x ∧ State.Within P t) (fun f => ContextualQuery.Within P f.cited) m s

namespace Keeping

variable {V : α → Prop} {W : β → Prop} {m : Reading α} {k : α → Reading β} {x : α} {f : Fault}

/-- Whoever reads nothing cites nothing. -/
theorem pure (h : V x) : Keeping P V (pure x) := fun _ clean => ⟨h, clean⟩

theorem refuse (h : ContextualQuery.Within P f.cited) : Keeping P V (refuse f) := fun _ _ => h

theorem any (h : Keeping P V m) : Keeping P (fun _ => True) m :=
  fun s clean => (h s clean).mono (fun _ _ h => ⟨trivial, h.2⟩) fun _ h => h

/-- The value of the first part is known to be as asked when the second one is read. -/
theorem bind (hm : Keeping P V m) (hk : ∀ x, V x → Keeping P W (k x)) : Keeping P W (m >>= k) :=
  fun s clean => (hm s clean).bind fun x t h => hk x h.1 t h.2

theorem ite {p : Prop} [Decidable p] {n : Reading α} (hm : Keeping P V m) (hn : Keeping P V n) :
    Keeping P V (if p then m else n) := by
  split
  · exact hm
  · exact hn

/-- A check cites a text that is in the class. -/
theorem guard {p : Prop} [Decidable p] {u : PUnit → Reading α}
    (h : p → ContextualQuery.Within P f.cited) (hm : Keeping P V m) :
    Keeping P V (if p then Reading.refuse f >>= u else m) :=
  fun s clean => .guard h (hm s clean)

/-- The token in sight is one of those left to be read. -/
theorem current :
    Keeping P (fun found => ∀ t ∈ found, ContextualQuery.Within P t.text) Reading.current :=
  fun _ clean => ⟨fun t ht => clean.1 t (List.mem_of_mem_head? ht), clean⟩

theorem following : Keeping P (fun _ => True) Reading.following := fun _ clean => ⟨trivial, clean⟩

theorem currentIs (p : Token → Bool) : Keeping P (fun _ => True) (Reading.currentIs p) :=
  fun _ clean => ⟨trivial, clean⟩

theorem newId : Keeping P (fun _ => True) Reading.newId := fun _ clean => ⟨trivial, clean⟩

/-- With fewer than three tokens left, dropping one may be refused for the open quote, which is
    cited. -/
theorem advance : Keeping P (fun _ => True) Reading.advance := by
  rintro ⟨⟨ts, quote⟩, n⟩ ⟨tokens, unclosed⟩
  match ts, quote, tokens, unclosed with
  | _ :: second :: third :: rest, quote, tokens, unclosed =>
    exact ⟨trivial, fun t ht => tokens t (List.mem_cons_of_mem _ ht), unclosed⟩
  | [], some text, _, unclosed | [_], some text, _, unclosed | [_, _], some text, _, unclosed =>
    exact unclosed text rfl
  | [], none, tokens, unclosed | [_], none, tokens, unclosed | [_, _], none, tokens, unclosed =>
    exact ⟨trivial, fun t ht => tokens t (List.mem_of_mem_tail ht), unclosed⟩

theorem ofExcept {x : Except Fault α} (ok : ∀ a, x = .ok a → V a)
    (error : ∀ f, x = .error f → ContextualQuery.Within P f.cited) : Keeping P V (ofExcept x) :=
  fun _ clean => .ofExcept (fun a h => ⟨ok a h, clean⟩) error

/-- A loop keeps what is asked of its value. -/
theorem foldWhile {p : Token → Bool} {step : α → Reading α} (h : ∀ x, V x → Keeping P V (step x))
    (start : V x) : Keeping P V (foldWhile p step x) :=
  fun _ clean => .foldWhile (fun y t hy _ => h y hy.1 t hy.2) ⟨start, clean⟩

theorem many {p : Token → Bool} (h : Keeping P V m) :
    Keeping P (fun xs => ∀ x ∈ xs, V x) (many p m) := by
  refine bind (foldWhile (V := fun xs => ∀ x ∈ xs, V x) (fun xs hxs => ?_) (by simp)) fun xs hxs => ?_
  · exact bind h fun x hx => pure (List.forall_mem_cons.2 ⟨hx, hxs⟩)
  · exact pure fun x hx => hxs x (List.mem_reverse.1 hx)

/-! ### The parts of a clause -/

/-- A text that cannot be split is cited as a whole. -/
theorem ofSplit {s : String} (h : ContextualQuery.Within P s) :
    Keeping P (fun _ => True) (Reading.ofExcept (splitName s)) :=
  ofExcept (fun _ _ => trivial) fun _ failed => cited_of_splitName failed ▸ h

/-- A quoted name is cited with its quotes if names must not be quoted, and is split without them.
    -/
theorem name : Keeping P (fun _ => True) (name rules) := by
  refine bind current fun found hfound => ?_
  split
  · exact ofSplit (hfound _ rfl)
  · exact guard (fun _ => hfound _ rfl) (ofSplit (hfound _ rfl).unquote)
  · exact refuse (within_textOf hfound)

theorem modifierValue : Keeping P (fun _ => True) modifierValue := by
  refine bind current fun found hfound => ?_
  split
  · exact bind advance fun _ _ => pure trivial
  · exact bind advance fun _ _ => pure trivial
  · exact refuse (within_textOf hfound)

theorem term : Keeping P (fun _ => True) (term rules) :=
  bind current fun _ hfound =>
    bind (ofExcept (fun _ _ => trivial) fun _ => within_cited_of_termOf hfound) fun _ _ =>
      bind advance fun _ _ => pure trivial

theorem identifierSegment : Keeping P (fun _ => True) identifierSegment := by
  refine bind advance fun _ _ => bind current fun _ _ => ?_
  split
  · exact bind advance fun _ _ => pure trivial
  · exact pure trivial

/-- Slashes and words are joined, a quoted identifier is taken out of its quotes. -/
theorem identifier : Keeping P (fun _ => True) (identifier rules) := by
  refine bind current fun found hfound => ?_
  split
  · exact guard (fun _ => hfound _ rfl) (bind advance fun _ _ => pure trivial)
  · exact bind advance fun _ _ => bind (many identifierSegment) fun _ _ => pure trivial
  · exact refuse (within_textOf hfound)

section

variable (a : Alphabet P)
include a

/-- The name of a modifier is cited in lower case. -/
theorem modifierName : Keeping P (fun _ => True) modifierName := by
  refine bind current fun found hfound => ?_
  split
  · exact ofSplit (a.within_lowercase (hfound _ rfl))
  · exact refuse within_empty
  · exact refuse within_empty
  · exact refuse (within_textOf hfound)

theorem modifier : Keeping P (fun _ => True) modifier := by
  refine bind advance fun _ _ => bind (modifierName a) fun _ _ => bind advance fun _ _ => ?_
  refine bind current fun found _ => ?_
  split
  · exact bind advance fun _ _ => bind modifierValue fun _ _ => pure trivial
  · exact pure trivial

theorem modifiers : Keeping P (fun _ => True) modifiers := (many (modifier a)).any

/-- A word in the place of a relation is cited in lower case. -/
theorem relation : Keeping P (fun _ => True) relation := by
  refine bind current fun found hfound => ?_
  split
  · exact bind advance fun _ _ => bind (modifiers a) fun _ _ => pure trivial
  · refine bind (ofSplit (a.within_lowercase (hfound _ rfl))) fun _ _ => ?_
    exact bind advance fun _ _ => bind (modifiers a) fun _ _ => pure trivial
  · exact refuse (within_textOf hfound)

theorem boolean : Keeping P (fun _ => True) boolean := by
  refine bind current fun found hfound => ?_
  split
  · split
    · exact bind advance fun _ _ => bind (modifiers a) fun _ _ => pure trivial
    · exact refuse (within_textOf hfound)
  · exact refuse (within_textOf hfound)

theorem sortKey : Keeping P (fun _ => True) (sortKey rules) :=
  bind name fun _ _ => bind advance fun _ _ => bind (modifiers a) fun _ _ => pure trivial

theorem sortKeys : Keeping P (fun _ => True) (sortKeys rules) :=
  bind (currentIs _) fun _ _ => ite (many (sortKey a)).any (refuse within_empty)

/-- The short name of a declaration is in the class, as it is cited when it is declared twice. -/
theorem prefixName : Keeping P (ContextualQuery.Within P) prefixName := by
  refine bind following fun next _ =>
    ite (bind current fun found hfound => ?_) (pure within_empty)
  split
  · exact bind advance fun _ _ => bind advance fun _ _ => pure (a.within_lowercase (hfound _ rfl))
  · exact refuse (within_textOf hfound)

/-- Names declared so far are in the class, and so is the one that is added. -/
theorem declaration {group : PrefixMap} (clean : ∀ n ∈ group.names, ContextualQuery.Within P n) :
    Keeping P (fun m => ∀ n ∈ m.names, ContextualQuery.Within P n) (declaration rules group) := by
  refine bind advance fun _ _ => bind (prefixName a) fun name hname => bind identifier fun i _ => ?_
  refine guard (fun _ => hname) (pure fun n hn => ?_)
  rcases (Dictionary.mem_keys_insertEntry _).1 hn with rfl | old
  · exact a.within_lowercase hname
  · exact clean n old

theorem declarations :
    Keeping P (fun m => ∀ n ∈ m.names, ContextualQuery.Within P n) (declarations rules) :=
  foldWhile (fun _ clean => declaration a clean) (by rintro n ⟨⟩)

/-! ### Trees -/

omit a in
theorem newClause (clause : Clause) : Keeping P (fun _ => True) (newClause clause) :=
  bind newId fun _ _ => pure trivial

omit a in
theorem newTriple (l : Node) (b : Boolean) (r : Node) :
    Keeping P (fun _ => True) (newTriple l b r) :=
  bind newId fun _ _ => pure trivial

/-- A term that stands alone, an index in front of a parenthesis, or all three parts. -/
theorem clause : Keeping P (fun _ => True) (clause rules) := by
  refine bind following fun next _ => ite (bind current fun found hfound => ?_) (ite ?_ ?_)
  · exact guard (fun _ => within_empty) (bind term fun _ _ => newClause _)
  · exact bind current fun _ hfound => refuse (within_textOf hfound)
  · refine bind name fun _ _ => bind advance fun _ _ => bind (relation a) fun _ _ => ?_
    exact bind current fun _ _ => guard (fun _ => within_empty) (bind term fun _ _ => newClause _)

theorem join {operand : Reading Node} (h : Keeping P (fun _ => True) operand) (left : Node) :
    Keeping P (fun _ => True) (join rules operand left) :=
  bind (boolean a) fun _ _ => bind h fun _ _ => bind (newTriple _ _ _) fun _ _ =>
    guard (fun _ => within_empty) (pure trivial)

theorem chain {operand : Reading Node} (h : Keeping P (fun _ => True) operand) :
    Keeping P (fun _ => True) (chain rules operand) :=
  bind h fun _ _ => bind (foldWhile (fun left _ => join a h left) trivial) fun _ _ =>
    bind (currentIs _) fun _ _ =>
      ite (bind advance fun _ _ => bind (sortKeys a) fun _ _ => pure trivial) (pure trivial)

/-- What is declared in front of a parenthesis or behind it is in the class when the scope is
    entered. -/
theorem subquery {enter : PrefixMap → Reading Node}
    (h : ∀ group : PrefixMap, (∀ n ∈ group.names, ContextualQuery.Within P n) →
      Keeping P (fun _ => True) (enter group)) :
    Keeping P (fun _ => True) (subquery rules enter) := by
  refine bind (currentIs _) fun _ _ => ite ?_ ?_
  · refine bind advance fun _ _ => bind (declarations a) fun group clean => bind (h group clean)
      fun node _ => ?_
    refine bind (currentIs _) fun _ _ => ite (bind advance fun _ _ => pure trivial) ?_
    exact bind current fun _ hfound => bind (refuse (V := fun _ => True) (within_textOf hfound))
      fun _ _ => bind advance fun _ _ => pure trivial
  · exact bind (declarations a) fun group clean => ite (clause a) (h group clean)

/-- A name that is declared again is one of the group that is entered. -/
theorem inScope (depth : Nat) : ∀ (frames : List PrefixMap) (group : PrefixMap),
    (∀ n ∈ group.names, ContextualQuery.Within P n) →
      Keeping P (fun _ => True) (inScope rules depth frames group) := by
  induction depth with
  | zero => exact fun _ _ _ => refuse within_empty
  | succ depth ih =>
    intro frames group clean
    rw [inScope_succ]
    cases again : redeclared? rules frames group with
    | some n => exact refuse (clean n (List.mem_of_find?_eq_some (redeclared?_eq_some.1 again).2))
    | none => exact bind (chain a (subquery a (ih (group :: frames)))) fun _ _ => pure trivial

/-- All parts put together: whatever is cited of a text in the class is in the class. -/
theorem query (source : String) : Keeping P (fun _ => True) (query rules source) := by
  have tree : Keeping P (fun _ => True) (tree rules) := by
    refine bind (declarations a) fun group clean => bind (inScope a _ _ _ clean) fun root _ => ?_
    refine bind current fun found hfound => ?_
    split
    · exact bind (refuse (V := fun _ => True) (hfound _ rfl)) fun _ _ => pure trivial
    · exact pure trivial
  exact bind tree fun _ _ =>
    bind (V := fun _ => True) (fun _ clean => ⟨trivial, clean⟩) fun _ _ => pure trivial

end

end Keeping

end Reading

/-! ### Lexing -/

/-- By induction on the tokens of the text: each of them is a piece of it. -/
theorem Lexemes.Splits.within {punctuation : String} {cs d : List Char} {ts : List Token}
    (h : Splits punctuation cs ts d) (clean : ∀ c ∈ cs, P c) :
    (∀ t ∈ ts, Within P t.text) ∧ ∀ c ∈ d, P c := by
  induction h with
  | nil _ => exact ⟨by simp, (List.forall_mem_append.1 clean).2⟩
  | cons _ taken _ ih =>
    obtain ⟨-, clean⟩ := List.forall_mem_append.1 clean
    obtain ⟨first, rest⟩ := List.forall_mem_append.1 clean
    obtain ⟨tokens, left⟩ := ih rest
    refine ⟨List.forall_mem_cons.2 ⟨?_, tokens⟩, left⟩
    rw [taken.text_eq]
    exact within_ofList.2 first

/-- The tokens of a text, and what stands behind a quote that is never closed, are made of its
    characters. -/
theorem Lexemes.within_ofText (punctuation : String) {source : String} (clean : Within P source) :
    (∀ t ∈ (ofText punctuation source).tokens, Within P t.text) ∧
      ∀ text ∈ (ofText punctuation source).unterminated, Within P text := by
  obtain ⟨tokens, left⟩ := (splits_ofText punctuation source).1.within clean
  refine ⟨tokens, fun text h => ?_⟩
  rw [Option.mem_def] at h
  rwa [Lexemes.left, h] at left

/-! ### Outcomes -/

/-- What a text is refused for cites nothing but characters of the text. -/
theorem within_cited_of_attempt (a : Alphabet P) {rules : Rules} {source : String} {f : Fault}
    (clean : Within P source) (h : attempt rules source = .error f) : Within P f.cited := by
  have lexed := Lexemes.within_ofText rules.wordChars clean
  refine fault_of_attempt (E := fun f => Within P f.cited) lexed.2 (fun s same => ?_) h
  have within : s.Within P := by rwa [Reading.State.Within, same]
  exact (Reading.Keeping.query a source s within).mono (fun _ _ _ => trivial) fun _ cited => cited

end ContextualQuery
