import ContextualQuery.Proofs.Case
import ContextualQuery.Proofs.PrefixMap
import ContextualQuery.Proofs.Reading.Run

/-! Reading tokens in another ASCII case, and with other numbers for the nodes.

    Each step of reading does to changed tokens what it does to the tokens as they are, and its outcome
    is changed in the same way (`Commutes`): terms, values, identifiers and names without a set are in
    the other case, and the numbers are raised. Relations, modifiers, short names and names with a set
    are in lower case already and stay. -/

namespace ContextualQuery

open Text Unicode

variable {c : Char → Char} {k : Nat}

/-! ### Tokens, faults and parts of a query in another case -/

def Token.recase (c : Char → Char) : Token → Token
  | .word s => .word (Text.recase c s)
  | .quoted s => .quoted (Text.recase c s)
  | .symbol x => .symbol (c x)
  | t => t

/-- Whether a token is written in one way only, and without letters. -/
def Token.isSign : Token → Bool
  | .word _ | .quoted _ | .symbol _ => false
  | .openParen | .closeParen | .slash | .comparison _ => true

def Lexemes.recase (c : Char → Char) (l : Lexemes) : Lexemes where
  tokens := l.tokens.map (Token.recase c)
  unterminated := l.unterminated.map (Text.recase c)

/-- A short name is in lower case when it is reported. -/
def Fault.recase (c : Char → Char) : Fault → Fault
  | .unterminated text => .unterminated (Text.recase c text)
  | .tooDeep => .tooDeep
  | .leftover found => .leftover (found.recase c)
  | .unexpected found => .unexpected (found.map (Token.recase c))
  | .incompleteClause found => .incompleteClause (found.map (Token.recase c))
  | .noPrefixName found => .noPrefixName (found.map (Token.recase c))
  | .noIdentifier found => .noIdentifier (found.map (Token.recase c))
  | .noIndex found => .noIndex (found.map (Token.recase c))
  | .noRelation found => .noRelation (found.map (Token.recase c))
  | .noModifierName found => .noModifierName (found.map (Token.recase c))
  | .noModifierValue found => .noModifierValue (found.map (Token.recase c))
  | .noTerm found => .noTerm (found.map (Token.recase c))
  | .endBeforeTerm => .endBeforeTerm
  | .emptyModifier => .emptyModifier
  | .noSortKeys => .noSortKeys
  | .duplicatePrefix name => .duplicatePrefix name
  | .quotedName text => .quotedName (Text.recase c text)
  | .severalDots name => .severalDots (Text.recase c name)
  | .emptySet name => .emptySet (Text.recase c name)
  | .bareOperator found => .bareOperator (found.recase c)
  | .onlyAnchors term => .onlyAnchors (Text.recase c term)
  | .emptyTerm term => .emptyTerm (Text.recase c term)
  | .badEscape term => .badEscape (Text.recase c term)

/-- A name with a set is in lower case. -/
def QualifiedName.recase (c : Char → Char) (n : QualifiedName) : QualifiedName :=
  if n.set = "" then { n with base := Text.recase c n.base } else n

def Modifier.recase (c : Char → Char) (m : Modifier) : Modifier :=
  { m with value := Text.recase c m.value }

def Index.recase (c : Char → Char) (i : Index) : Index where
  name := i.name.recase c
  modifiers := i.modifiers.map (Modifier.recase c)

def Relation.recase (c : Char → Char) (r : Relation) : Relation :=
  { r with modifiers := r.modifiers.map (Modifier.recase c) }

def Boolean.recase (c : Char → Char) (b : Boolean) : Boolean :=
  { b with modifiers := b.modifiers.map (Modifier.recase c) }

def Term.recase (c : Char → Char) (t : Term) : Term := ⟨Text.recase c t.text⟩

def Clause.recase (c : Char → Char) (cl : Clause) : Clause where
  index := cl.index.recase c
  relation := cl.relation.recase c
  term := cl.term.recase c

/-- A dictionary with all its values changed. -/
def Dictionary.mapValues (f : String → String) (d : Dictionary) : Dictionary where
  entries := d.entries.map fun p => (p.1, f p.2)
  ascending := List.pairwise_map.2 d.ascending

def PrefixMap.recase (c : Char → Char) (m : PrefixMap) : PrefixMap :=
  ⟨m.bindings.mapValues (Text.recase c)⟩

/-- What belongs to a node, in another case and with the number raised by `k`. -/
def NodeInfo.recase (c : Char → Char) (k : Nat) (info : NodeInfo) : NodeInfo :=
  { info with
    id := info.id + k
    prefixes := info.prefixes.recase c
    sortKeys := info.sortKeys.map (Index.recase c) }

/-- A tree in another case, all its numbers raised by `k`. -/
def Node.recase (c : Char → Char) (k : Nat) : Node → Node
  | .clause info cl => .clause (info.recase c k) (cl.recase c)
  | .triple info left boolean right =>
    .triple (info.recase c k) (left.recase c k) (boolean.recase c) (right.recase c k)

/-- A query in another case, `k` more nodes having been created in reading it. -/
def Query.recase (c : Char → Char) (k : Nat) (q : Query) : Query where
  source := Text.recase c q.source
  root := q.root.recase c k
  size := q.size + k
  defaults := q.defaults

/-- What is still to be read, in another case, when `k` more nodes have been created. -/
def Reading.State.recase (c : Char → Char) (k : Nat) (s : Reading.State) : Reading.State where
  lexemes := s.lexemes.recase c
  created := s.created + k

/-- The word of a relation is in lower case already; only the values of its modifiers change. -/
theorem Relation.recase_ofWord (word : String) (ms : List Modifier) :
    (ofWord word ms).recase c = ofWord word (ms.map (Modifier.recase c)) := by
  rw [ofWord, ofWord]
  split <;> rfl

/-! ### Maps of short names -/

namespace Dictionary

variable {f : String → String} {key value k : String}

/-- Changing all values commutes with putting in an entry: the place of the entry is decided by
    keys. -/
theorem map_insertEntry (entries : List (String × String)) :
    (insertEntry key value entries).map (fun p => (p.1, f p.2)) =
      insertEntry key (f value) (entries.map fun p => (p.1, f p.2)) := by
  induction entries with
  | nil => rfl
  | cons p rest ih =>
    rw [List.map_cons]
    unfold insertEntry
    split
    · rfl
    · split
      · rfl
      · rw [List.map_cons, ih]

/-- A changed table answers with the changed value. -/
theorem lookup_map (entries : List (String × String)) :
    (entries.map fun p => (p.1, f p.2)).lookup k = (entries.lookup k).map f := by
  induction entries with
  | nil => rfl
  | cons p rest ih =>
    rw [List.map_cons, lookup_cons_entry, lookup_cons_entry, ih]
    split <;> rfl

end Dictionary

namespace PrefixMap

variable (m : PrefixMap) (name identifier : String)

@[simp] theorem entries_recase :
    (m.recase c).entries = m.entries.map fun p => (p.1, Text.recase c p.2) := rfl

/-- Declared names are in lower case, so they are the same in both cases. -/
@[simp] theorem names_recase : (m.recase c).names = m.names := by
  rw [names, entries_recase, List.map_map]
  rfl

@[simp] theorem isEmpty_recase : (m.recase c).isEmpty = m.isEmpty := by
  change (m.entries.map _).isEmpty = m.entries.isEmpty
  exact List.isEmpty_map

@[simp] theorem contains_recase : (m.recase c).contains name = m.contains name := by
  change ((m.entries.map _).lookup _).isSome = (m.entries.lookup _).isSome
  rw [Dictionary.lookup_map, Option.isSome_map]

theorem recase_insert :
    (m.insert name identifier).recase c = (m.recase c).insert name (Text.recase c identifier) :=
  ext_entries (Dictionary.map_insertEntry m.entries)

theorem recase_insertNew :
    (m.insertNew name identifier).recase c = (m.recase c).insertNew name (Text.recase c identifier) := by
  rw [insertNew, insertNew, contains_recase]
  split
  · rfl
  · exact recase_insert m name identifier

/-- Filling up a map from an outer one commutes with changing the identifiers of both. -/
theorem recase_withDefaults (outer : PrefixMap) :
    (m.withDefaults outer).recase c = (m.recase c).withDefaults (outer.recase c) := by
  rw [withDefaults, withDefaults, entries_recase]
  generalize outer.entries = pairs
  induction pairs generalizing m with
  | nil => rfl
  | cons p pairs ih => rw [List.foldl_cons, List.map_cons, List.foldl_cons, ih, recase_insertNew]

end PrefixMap

/-! ### Trees -/

/-- Declarations attached to a tree are changed with it. -/
theorem Node.recase_declare (t : Node) (group : PrefixMap) :
    (t.declare group).recase c k = (t.recase c k).declare (group.recase c) := by
  cases t <;> simp [declare, mapInfo, recase, NodeInfo.recase, PrefixMap.recase_withDefaults]

theorem Node.recase_sortBy (t : Node) (keys : List Index) :
    (t.sortBy keys).recase c k = (t.recase c k).sortBy (keys.map (Index.recase c)) := by
  cases t <;> rfl

/-- Levels do not depend on letters. -/
@[simp] theorem Node.height_recase (t : Node) : (t.recase c k).height = t.height := by
  cases t <;> rfl

/-! ### Steps -/

namespace Reading

variable {α β γ δ : Type}

/-- A result in another case, the numbers raised by `k`; `f` says what becomes of its value. -/
def recaseResult (c : Char → Char) (k : Nat) (f : α → β) :
    EStateM.Result Fault State α → EStateM.Result Fault State β
  | .ok a s => .ok (f a) (s.recase c k)
  | .error e s => .error (e.recase c) (s.recase c k)

/-- A result without a state in another case. -/
def recaseExcept (c : Char → Char) (f : α → β) : Except Fault α → Except Fault β
  | .ok a => .ok (f a)
  | .error e => .error (e.recase c)

/-- Whether a reading does to a changed state what another one does to the state as it is. -/
def Commutes (c : Char → Char) (k : Nat) (f : α → β) (m : Reading α) (m' : Reading β) : Prop :=
  ∀ s, m' (s.recase c k) = recaseResult c k f (m s)

namespace Commutes

variable {f : α → β} {g : γ → δ} {m : Reading α} {m' : Reading β}

/-- Values handed on as `f` says. -/
theorem pure {a : α} {b : β} (h : f a = b) : Commutes c k f (pure a) (pure b) := by
  subst h
  exact fun _ => rfl

/-- Both are refused, for the same fault in two cases. -/
theorem refuse {e e' : Fault} (h : e.recase c = e') :
    Commutes c k f (refuse e : Reading α) (refuse e') := by
  subst h
  exact fun _ => rfl

/-- Steps that commute, one behind the other: the second is given `a` on one side and `f a` on the
    other. -/
theorem bind {n : α → Reading γ} {n' : β → Reading δ} (hm : Commutes c k f m m')
    (hn : ∀ a, Commutes c k g (n a) (n' (f a))) : Commutes c k g (m >>= n) (m' >>= n') := by
  intro s
  rw [bind_run, bind_run, hm s]
  cases m s with
  | ok a t => exact hn a t
  | error e t => rfl

/-- A branch that is taken on one side is taken on the other. -/
theorem ite {p p' : Prop} [Decidable p] [Decidable p'] {n : Reading α} {n' : Reading β}
    (same : p ↔ p') (hm : Commutes c k f m m') (hn : Commutes c k f n n') :
    Commutes c k f (if p then m else n) (if p' then m' else n') := by
  by_cases h : p
  · rw [if_pos h, if_pos (same.1 h)]
    exact hm
  · rw [if_neg h, if_neg (same.not.1 h)]
    exact hn

/-- Both are refused by a check, or neither. -/
theorem guard {p p' : Prop} [Decidable p] [Decidable p'] {e e' : Fault} (same : p ↔ p')
    (he : e.recase c = e') (hm : Commutes c k f m m') :
    Commutes c k f (if p then Reading.refuse e >>= fun _ : PUnit => m else m)
      (if p' then Reading.refuse e' >>= fun _ : PUnit => m' else m') :=
  ite same (bind (f := id) (refuse he) fun _ => hm) hm

/-- The token in sight is the changed one. -/
theorem current : Commutes c k (Option.map (Token.recase c)) current current := by
  intro s
  change EStateM.Result.ok (List.head? (s.lexemes.tokens.map _)) _ = .ok _ _
  rw [List.head?_map]
  rfl

theorem following : Commutes c k (Option.map (Token.recase c)) following following := by
  intro s
  change EStateM.Result.ok (s.lexemes.tokens.map _)[1]? _ = .ok _ _
  rw [List.getElem?_map]
  rfl

/-- A question with one answer for both cases. -/
theorem currentIs {p : Token → Bool} (same : ∀ t, p (t.recase c) = p t) :
    Commutes c k id (currentIs p) (currentIs p) :=
  bind current fun found => pure (by cases found <;> simp [same])

/-- Dropping a token from both. With fewer than three tokens left and an open quote behind them both
    are refused, for the quote in two cases. -/
theorem advance : Commutes c k id advance advance := by
  rintro ⟨⟨tokens, quote⟩, created⟩
  match tokens, quote with
  | [], none | [_], none | [_, _], none => rfl
  | [], some _ | [_], some _ | [_, _], some _ => rfl
  | _ :: _ :: _ :: _, _ => rfl

theorem ofExcept {x : Except Fault α} {y : Except Fault β} (same : y = recaseExcept c f x) :
    Commutes c k f (ofExcept x) (ofExcept y) := by
  subst same
  cases x with
  | ok a => exact pure rfl
  | error e => exact refuse rfl

/-- Numbers stay `k` apart. -/
theorem newId : Commutes c k (· + k) newId newId := by
  intro s
  change EStateM.Result.ok (s.created + k) _ = .ok (s.created + k) _
  rw [State.recase, State.recase, Nat.add_right_comm]

/-- Loops turn equally often, as each turn finds a token of the same kind. -/
theorem foldWhile {p : Token → Bool} (same : ∀ t, p (t.recase c) = p t) {step : α → Reading α}
    {step' : β → Reading β} (h : ∀ a, Commutes c k f (step a) (step' (f a))) (a : α) :
    Commutes c k f (foldWhile p step a) (foldWhile p step' (f a)) := by
  have loop : ∀ count a, Commutes c k f (Unread.loop p step count a)
      (Unread.loop p step' count (f a)) := by
    intro count
    induction count with
    | zero => exact fun a => pure rfl
    | succ count ih =>
      exact fun a => bind (currentIs same) fun goesOn => ite .rfl (bind (h a) ih) (pure rfl)
  intro s
  have tokens : (s.recase c k).lexemes.tokens.length = s.lexemes.tokens.length := List.length_map _
  change Unread.loop p step' (s.recase c k).lexemes.tokens.length (f a) (s.recase c k) = _
  rw [tokens]
  exact loop _ a s

/-- A list of items, each changed. -/
theorem many {p : Token → Bool} (same : ∀ t, p (t.recase c) = p t)
    (h : Commutes c k f m m') : Commutes c k (List.map f) (many p m) (many p m') :=
  bind (foldWhile same (fun _ => bind (g := List.map f) h fun _ => pure rfl) []) fun _ =>
    pure List.map_reverse

end Commutes

/-- Behind a query no nodes are left; behind a refusal those that had been created are. -/
theorem query_eq (rules : Rules) (source : String) (s : State) :
    query rules source s =
      match tree rules s with
      | .ok root t => .ok ⟨source, root, t.created, rules.defaultPrefixes⟩ { t with created := 0 }
      | .error f t => .error f t := by
  rw [query, Script.query, bind_run, tree]
  cases (Script.tree rules : Reading Node) s <;> rfl

end Reading

/-! ### The parts of a query -/

namespace Recases

open Reading

variable (h : Recases c) {rules : Rules}
include h

theorem sameFold_recase (s keyword : String) :
    Text.sameFold (Text.recase c s) keyword = Text.sameFold s keyword := by
  rw [sameFold, sameFold, fold_recase h]

/-- `SORTBY` is the keyword as much as `sortby` is. -/
theorem isWord_recase (keyword : String) (t : Token) :
    (t.recase c).isWord keyword = t.isWord keyword := by
  cases t with
  | word s => exact h.sameFold_recase s keyword
  | _ => rfl

/-- So is `AND`. -/
theorem isBoolean_recase (t : Token) : (t.recase c).isBoolean = t.isBoolean := by
  cases t with
  | word s => rw [Token.recase, Token.isBoolean, Token.isBoolean, ofWord?_recase h]
  | _ => rfl

omit h in
theorem isText_recase (t : Token) : (t.recase c).isText = t.isText := by
  cases t <;> rfl

/-- A term ends at the same tokens in both cases. -/
theorem endsTerm_recase (found : Option Token) :
    endsTerm (found.map (Token.recase c)) = endsTerm found := by
  cases found with
  | none => rfl
  | some t =>
    have closes : (t.recase c == .closeParen) = (t == .closeParen) := by cases t <;> rfl
    simp only [Option.map_some, endsTerm, h.isBoolean_recase, h.isWord_recase, closes]

/-- A name that is split is in another case where it has no set; with a set it is in lower case. -/
theorem splitName_recase (s : String) :
    splitName (Text.recase c s) = recaseExcept c (QualifiedName.recase c) (splitName s) := by
  rw [splitName, splitName, toList_recase, splitOnP_dot_map h]
  rcases s.toList.splitOnP (· == '.') with _ | ⟨set, _ | ⟨base, _ | _⟩⟩
  · rfl
  · rfl
  · cases set with
    | nil => rfl
    | cons x set =>
      have low (cs : List Char) :
          lowercase (String.ofList (cs.map c)) = lowercase (String.ofList cs) := by
        rw [← recase_ofList, lowercase_recase h]
      have some_char : lowercase (String.ofList (x :: set)) ≠ "" := lowercase_ne_empty (by simp)
      change (Except.ok ⟨lowercase (String.ofList ((x :: set).map c)),
          lowercase (String.ofList (base.map c))⟩ : Except Fault QualifiedName) =
        .ok (QualifiedName.recase c ⟨lowercase (String.ofList (x :: set)),
          lowercase (String.ofList base)⟩)
      rw [low, low, QualifiedName.recase, if_neg some_char]
  · rfl

/-- Names that are lower-cased as a whole do not change. -/
theorem splitName_lowercase_recase (s : String) :
    splitName (lowercase (Text.recase c s)) = recaseExcept c id (splitName (lowercase s)) := by
  have same := h.splitName_recase (lowercase s)
  rw [recase_lowercase h] at same
  rw [lowercase_recase h]
  cases split : splitName (lowercase s) with
  | ok n => rfl
  | error e =>
    rw [split] at same
    exact same

/-- `Title` and `title` differ as names, `DC.Title` and `dc.title` do not. -/
theorem name : Commutes c k (QualifiedName.recase c) (name rules) (name rules) := by
  refine .bind .current fun found => ?_
  match found with
  | some (.word s) => exact .ofExcept (h.splitName_recase s)
  | some (.quoted s) =>
    refine .guard .rfl rfl (.ofExcept ?_)
    rw [unquote_recase h, h.splitName_recase]
  | none | some .openParen | some .closeParen | some .slash | some (.comparison _)
  | some (.symbol _) => exact .refuse rfl

/-- The name of a modifier is lower-cased before it is split: both sides get one name. -/
theorem modifierName : Commutes c k id modifierName modifierName := by
  refine .bind .current fun found => ?_
  match found with
  | some (.word s) => exact .ofExcept (h.splitName_lowercase_recase s)
  | none | some .openParen | some .closeParen | some .slash | some (.comparison _)
  | some (.symbol _) | some (.quoted _) => exact .refuse rfl

omit h in
/-- The value of a modifier is handed on as it is written. -/
theorem modifierValue : Commutes c k (Text.recase c) modifierValue modifierValue := by
  refine .bind .current fun found => ?_
  match found with
  | some (.word s) | some (.quoted s) => exact .bind .advance fun _ => .pure rfl
  | none | some .openParen | some .closeParen | some .slash | some (.comparison _)
  | some (.symbol _) => exact .refuse rfl

/-- `/Stem=Yes` and `/stem=yes` differ in the value only. -/
theorem modifier : Commutes c k (Modifier.recase c) modifier modifier := by
  have empty : Text.recase c "" = "" := rfl
  refine .bind .advance fun _ => .bind h.modifierName fun name => .bind .advance fun _ =>
    .bind .current fun found => ?_
  match found with
  | some (.comparison _) => exact .bind .advance fun _ => .bind modifierValue fun _ => .pure rfl
  | none | some .openParen | some .closeParen | some .slash | some (.word _)
  | some (.symbol _) | some (.quoted _) => exact .pure (by rw [Modifier.recase, empty]; rfl)

omit h in
/-- Signs are where they were. -/
theorem beq_recase {sign : Token} (fixed : sign.isSign = true) (t : Token) :
    (t.recase c == sign) = (t == sign) := by
  cases sign with
  | word | quoted | symbol => contradiction
  | openParen | closeParen | slash | comparison => cases t <;> rfl

omit h in
/-- A question for one sign, such as `(`, has one answer. -/
theorem beq_map_recase {sign : Token} (fixed : sign.isSign = true) (found : Option Token) :
    (found.map (Token.recase c) == some sign) = (found == some sign) := by
  cases found with
  | none => rfl
  | some t => exact beq_recase fixed t

theorem modifiers : Commutes c k (List.map (Modifier.recase c)) modifiers modifiers :=
  .many (beq_recase rfl) h.modifier

/-- `ANY` and `any` are one relation. -/
theorem relation : Commutes c k (Relation.recase c) relation relation := by
  refine .bind .current fun found => ?_
  match found with
  | some (.comparison _) => exact .bind .advance fun _ => .bind h.modifiers fun _ => .pure rfl
  | some (.word s) =>
    refine .bind (f := id) (.ofExcept (h.splitName_lowercase_recase s)) fun _ => .bind .advance fun _ =>
      .bind h.modifiers fun ms => .pure ?_
    rw [lowercase_recase h]
    exact Relation.recase_ofWord _ _
  | none | some .openParen | some .closeParen | some .slash | some (.quoted _)
  | some (.symbol _) => exact .refuse rfl

/-- `AND` and `and` are one boolean. -/
theorem boolean : Commutes c k (Boolean.recase c) boolean boolean := by
  refine .bind .current fun found => ?_
  match found with
  | some (.word s) =>
    simp only [Option.map_some, Token.recase, ofWord?_recase h]
    cases Connective.ofWord? s with
    | none => exact .refuse rfl
    | some _ => exact .bind .advance fun _ => .bind h.modifiers fun _ => .pure rfl
  | none | some .openParen | some .closeParen | some .slash | some (.quoted _)
  | some (.symbol _) | some (.comparison _) => exact .refuse rfl

theorem sortKey : Commutes c k (Index.recase c) (sortKey rules) (sortKey rules) :=
  .bind h.name fun _ => .bind .advance fun _ => .bind h.modifiers fun _ => .pure rfl

theorem sortKeys : Commutes c k (List.map (Index.recase c)) (sortKeys rules) (sortKeys rules) :=
  .bind (.currentIs isText_recase) fun _ => .ite .rfl (.many isText_recase h.sortKey) (.refuse rfl)

/-- Anchors, emptiness and escapes are the same in both cases, so both terms pass or fail with one
    fault in two cases. -/
theorem checkTerm_recase (raw inner : String) :
    checkTerm rules (Text.recase c raw) (Text.recase c inner) =
      recaseExcept c (Term.recase c) (checkTerm rules raw inner) := by
  have anchors : (Text.recase c raw).toList.all (· == '^') = raw.toList.all (· == '^') := by
    have anchor (x : Char) : (c x == '^') = (x == '^') := by
      rw [Bool.eq_iff_iff, beq_iff_eq, beq_iff_eq, h.eq_iff isAlphanumeric_anchor]
    simp only [toList_recase, List.all_map, Function.comp_def, anchor]
  have empty : (Text.recase c inner).isEmpty = inner.isEmpty := by
    rw [Bool.eq_iff_iff, String.isEmpty_iff, String.isEmpty_iff, ← String.toList_eq_nil_iff,
      ← String.toList_eq_nil_iff, toList_recase, List.map_eq_nil_iff]
  rw [checkTerm, checkTerm, anchors, empty, toList_recase, escapesAreSpecial_map h]
  split
  · rfl
  · split
    · rfl
    · split <;> rfl

/-- A quoted term is changed between its quotes. -/
theorem termOf_recase (found : Option Token) :
    termOf rules (found.map (Token.recase c)) =
      recaseExcept c (Term.recase c) (termOf rules found) := by
  match found with
  | some (.word s) => exact h.checkTerm_recase s s
  | some (.quoted s) =>
    simp only [Option.map_some, Token.recase, termOf, ← h.checkTerm_recase, unquote_recase h,
      toList_recase, unescapeQuotes_map h, recase_ofList]
  | some (.symbol x) =>
    simp only [Option.map_some, Token.recase, termOf, ← h.checkTerm_recase, recase_toString]
  | none | some .openParen | some .closeParen | some .slash | some (.comparison _) => rfl

theorem term : Commutes c k (Term.recase c) (term rules) (term rules) :=
  .bind .current fun found => .bind (.ofExcept (h.termOf_recase found)) fun _ =>
    .bind .advance fun _ => .pure rfl

/-! ### Declarations -/

/-- A short name is lower-cased where it is declared. -/
theorem prefixName : Commutes c k id prefixName prefixName := by
  refine .bind .following fun next => .ite (by rw [beq_map_recase rfl]) ?_ (.pure rfl)
  refine .bind .current fun found => ?_
  match found with
  | some (.word s) =>
    exact .bind .advance fun _ => .bind .advance fun _ => .pure (lowercase_recase h s).symm
  | none | some .openParen | some .closeParen | some .slash | some (.comparison _)
  | some (.symbol _) | some (.quoted _) => exact .refuse rfl

theorem identifierSegment :
    Commutes c k (Text.recase c) identifierSegment identifierSegment := by
  have slash : Text.recase c "/" = "/" := recase_of_marks h (by simpa using isAlphanumeric_slash)
  refine .bind .advance fun _ => .bind .current fun found => ?_
  match found with
  | some (.word s) => exact .bind .advance fun _ => .pure (by rw [recase_append, slash])
  | none | some .openParen | some .closeParen | some .slash | some (.comparison _)
  | some (.symbol _) | some (.quoted _) => exact .pure slash

/-- An identifier is kept as it is written: `info:A/B` stays apart from `info:a/b`. -/
theorem identifier : Commutes c k (Text.recase c) (identifier rules) (identifier rules) := by
  refine .bind .current fun found => ?_
  match found with
  | some (.word s) =>
    refine .bind .advance fun _ => .bind (.many (beq_recase rfl) h.identifierSegment) fun _ => .pure ?_
    rw [recase_append, recase_join]
  | some (.quoted s) =>
    exact .guard .rfl rfl (.bind .advance fun _ => .pure (unquote_recase h s).symm)
  | none | some .openParen | some .closeParen | some .slash | some (.comparison _)
  | some (.symbol _) => exact .refuse rfl

/-- A name that is declared twice in one case is declared twice in the other. -/
theorem declaration (group : PrefixMap) : Commutes c k (PrefixMap.recase c)
    (declaration rules group) (declaration rules (group.recase c)) := by
  refine .bind .advance fun _ => .bind h.prefixName fun name => .bind h.identifier fun _ => ?_
  refine .guard ?_ rfl (.pure (PrefixMap.recase_insert group _ _))
  rw [Script.declared_trees, Script.declared_trees, PrefixMap.contains_recase]
  rfl

theorem declarations :
    Commutes c k (PrefixMap.recase c) (declarations rules) (declarations rules) :=
  .foldWhile (beq_recase rfl) h.declaration .empty

/-! ### Trees -/

omit h in
theorem newClause {cl cl' : Clause} (same : cl.recase c = cl') :
    Commutes c k (Node.recase c k) (newClause cl) (newClause cl') := by
  subst same
  exact .bind .newId fun _ => .pure rfl

omit h in
/-- The levels are those of the changed operands. -/
theorem newTriple (left : Node) (boolean : Boolean) (right : Node) :
    Commutes c k (Node.recase c k) (newTriple left boolean right)
      (newTriple (left.recase c k) (boolean.recase c) (right.recase c k)) :=
  .bind .newId fun _ => .pure (by simp [Node.recase, NodeInfo.recase]; rfl)

/-- Which of the two forms a clause has is decided by the token behind the first one. -/
theorem clause : Commutes c k (Node.recase c k) (clause rules) (clause rules) := by
  have isNone (found : Option Token) :
      (found.map (Token.recase c)).isNone = true ↔ found.isNone = true := by
    rw [Option.isNone_map]
  refine .bind .following fun next => .ite (by rw [h.endsTerm_recase]) ?_
    (.ite (by rw [beq_map_recase rfl]) ?_ ?_)
  · exact .bind .current fun found => .guard (isNone found).symm rfl (.bind h.term fun _ => newClause rfl)
  · exact .bind .current fun found => .refuse rfl
  · refine .bind h.name fun _ => .bind .advance fun _ => .bind h.relation fun _ => ?_
    exact .bind .current fun found =>
      .guard (isNone found).symm rfl (.bind h.term fun _ => newClause rfl)

/-- Too many levels on one side are too many on the other. -/
theorem join {operand operand' : Reading Node} (inner : Commutes c k (Node.recase c k) operand operand')
    (left : Node) : Commutes c k (Node.recase c k) (join rules operand left)
      (join rules operand' (left.recase c k)) := by
  refine .bind h.boolean fun _ => .bind inner fun _ => .bind (newTriple _ _ _) fun node => ?_
  exact .guard (by rw [Node.height_recase]) rfl (.pure rfl)

/-- The keys behind `sortby` are read in both cases, or in neither. -/
theorem chain {operand operand' : Reading Node}
    (inner : Commutes c k (Node.recase c k) operand operand') :
    Commutes c k (Node.recase c k) (chain rules operand) (chain rules operand') := by
  refine .bind inner fun first => .bind (.foldWhile h.isBoolean_recase (h.join inner) first) fun whole =>
    .bind (.currentIs (h.isWord_recase sortWord)) fun _ => .ite .rfl ?_ (.pure rfl)
  exact .bind .advance fun _ => .bind h.sortKeys fun keys => .pure (Node.recase_sortBy _ keys)

/-- What `enter` reads is left open: it commutes by assumption. -/
theorem subquery {enter enter' : PrefixMap → Reading Node}
    (inner : ∀ group, Commutes c k (Node.recase c k) (enter group) (enter' (group.recase c))) :
    Commutes c k (Node.recase c k) (subquery rules enter) (subquery rules enter') := by
  refine .bind (.currentIs (beq_recase rfl)) fun _ => .ite .rfl ?_ ?_
  · refine .bind .advance fun _ => .bind h.declarations fun group => .bind (inner group) fun _ => ?_
    refine .bind (.currentIs (beq_recase rfl)) fun _ => .ite .rfl (.bind .advance fun _ => .pure rfl) ?_
    exact .bind .current fun _ => .bind (f := id) (.refuse rfl) fun _ => .bind .advance fun _ => .pure rfl
  · refine .bind h.declarations fun group => ?_
    exact .ite (by simp [PrefixMap.isEmpty_recase]) h.clause (inner group)

/-- By induction on the scopes that may still be opened: names are compared in lower case, so a name
    is declared again on both sides or on neither. -/
theorem inScope (depth : Nat) : ∀ (frames : List PrefixMap) (group : PrefixMap),
    Commutes c k (Node.recase c k) (inScope rules depth frames group)
      (inScope rules depth (frames.map (PrefixMap.recase c)) (group.recase c)) := by
  induction depth with
  | zero => exact fun _ _ => .refuse rfl
  | succ depth ih =>
    intro frames group
    have again : redeclared? rules (frames.map (PrefixMap.recase c)) (group.recase c) =
        redeclared? rules frames group := by
      simp only [redeclared?, PrefixMap.names_recase, List.any_map, Function.comp_def]
    rw [inScope_succ, inScope_succ, again]
    cases redeclared? rules frames group with
    | some name => exact .refuse rfl
    | none =>
      exact .bind (h.chain (h.subquery (ih (group :: frames)))) fun node =>
        .pure (node.recase_declare group)

/-- Reading a tree. -/
theorem tree : Commutes c k (Node.recase c k) (tree rules) (tree rules) := by
  refine .bind h.declarations fun group => .bind (h.inScope rules.maxDepth [] group) fun root => ?_
  refine .bind .current fun found => ?_
  match found with
  | none => exact .pure rfl
  | some t => exact .bind (f := id) (.refuse rfl) fun _ => .pure rfl

/-- Reading a query. The numbering starts anew behind it, whatever was created before. -/
theorem query (source : String) (s : State) :
    Reading.query rules (Text.recase c source) (s.recase c k) =
      match Reading.query rules source s with
      | .ok q t => .ok (q.recase c k) (t.recase c 0)
      | .error f t => .error (f.recase c) (t.recase c k) := by
  rw [query_eq, query_eq, h.tree s]
  cases Reading.tree rules s <;> rfl

end Recases

end ContextualQuery
