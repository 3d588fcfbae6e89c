import ContextualQuery.Proofs.Layout
import ContextualQuery.Proofs.Numbering
import ContextualQuery.Proofs.PrefixMap
import ContextualQuery.Proofs.Reading.Usual
import ContextualQuery.Proofs.RoundTrip.Parts

/-! The trees that are read, and the phrases that they are written as.

    A tree that was read is numbered and measured in the order of creation (`Node.Built`), and its
    parts were read from its tokens (`Node.Sourced`). With strict rules no name is declared twice on
    the way from a node to the root (`Node.Apart`). A tree is written as a phrase that builds the
    same tree (`build_phrase`). -/

namespace ContextualQuery

open Lexemes Reading Unicode

variable {rules : Rules} {T : Token → Prop} {punctuation : String}

/-! ### Parts of what was read -/

/-- The modifiers of sort keys at a node. -/
def NodeInfo.modifiers (info : NodeInfo) : List Modifier := info.sortKeys.flatMap (·.modifiers)

/-- All modifiers in a tree: those of indexes, relations, booleans and sort keys. -/
def Node.modifiers : Node → List Modifier
  | .clause info c => info.modifiers ++ (c.index.modifiers ++ c.relation.modifiers)
  | .triple info left boolean right =>
    info.modifiers ++ (left.modifiers ++ (boolean.modifiers ++ right.modifiers))

/-- Whether a declaration was read, and with strict rules is of no reserved name. -/
def DeclarationSourced (T : Token → Prop) (rules : Rules) (d : String × String) : Prop :=
  Sourced T (DeclarationSpelling rules) d ∧
    (rules.rejectDuplicatePrefix = true → ContextSet.reserved? d.1 = none)

/-- Whether all parts of a phrase were read. -/
def Phrase.Sourced (T : Token → Prop) (rules : Rules) : Phrase → Prop
  | .clause c => ContextualQuery.Sourced T (ClauseSpelling rules) c
  | .join left boolean right =>
    left.Sourced T rules ∧ ContextualQuery.Sourced T BooleanSpelling boolean ∧ right.Sourced T rules
  | .sort body keys =>
    body.Sourced T rules ∧ ∀ k ∈ keys, ContextualQuery.Sourced T (KeySpelling rules) k
  | .scope group body => body.Sourced T rules ∧ ∀ d ∈ group, DeclarationSourced T rules d

/-- Strict rules keep reserved names out of groups. -/
theorem Addable.reserved {ds : Declarations} {group : PrefixMap} (h : Addable rules group ds) :
    ∀ d ∈ ds, rules.rejectDuplicatePrefix = true → ContextSet.reserved? d.1 = none := by
  induction ds generalizing group with
  | nil => simp
  | cons d ds ih =>
    obtain ⟨first, rest⟩ := h
    exact List.forall_mem_cons.2 ⟨fun strict => (first strict).2, ih rest⟩

/-- Declarations of a group are made of its tokens. -/
theorem sourced_of_group {u : List Token} {next : Option Token} {group : Declarations}
    (h : GroupSpelling rules u next group) (tokens : ∀ t ∈ u, T t) :
    ∀ d ∈ group, DeclarationSourced T rules d := by
  obtain ⟨written, addable⟩ := h
  exact fun d hd => ⟨sourced_of_sequence written tokens d hd, addable.reserved d hd⟩

theorem sourced_hereditary : Hereditary rules T (Phrase.Sourced T rules) where
  clause tokens spelled := ⟨_, _, tokens, spelled⟩
  join tokens joined first second := ⟨first, ⟨_, _, tokens, joined⟩, second⟩
  sort tokens sorting below := ⟨below, sourced_of_sequence sorting tokens⟩
  scope tokens declared below := ⟨below, sourced_of_group declared tokens⟩

/-- All parts of a phrase are made of the tokens that spell it. -/
theorem Spells.sourced {part : Part} {u : List Token} {next : Option Token} {p : Phrase}
    (h : Spells rules part u next p) (tokens : ∀ t ∈ u, T t) :
    (∀ left, part = .links left → left.Sourced T rules) → p.Sourced T rules :=
  sourced_hereditary.holds h tokens

/-- Whether all that is attached to a node was read. -/
def NodeInfo.Sourced (T : Token → Prop) (rules : Rules) (info : NodeInfo) : Prop :=
  (∀ d ∈ info.prefixes.entries, DeclarationSourced T rules d) ∧
    ∀ k ∈ info.sortKeys, ContextualQuery.Sourced T (KeySpelling rules) k

/-- Whether all parts of a tree were read. -/
def Node.Sourced (T : Token → Prop) (rules : Rules) : Node → Prop
  | .clause info c => info.Sourced T rules ∧ ContextualQuery.Sourced T (ClauseSpelling rules) c
  | .triple info left boolean right =>
    info.Sourced T rules ∧ left.Sourced T rules ∧ ContextualQuery.Sourced T BooleanSpelling boolean ∧
      right.Sourced T rules

/-- By induction on the phrase: declarations and keys stay with the node that they are attached to.
    -/
theorem Phrase.Sourced.build {p : Phrase} (h : p.Sourced T rules) (n : Nat) :
    (p.build n).Sourced T rules := by
  induction p generalizing n with
  | clause c => exact ⟨⟨by rintro d ⟨⟩, by simp⟩, h⟩
  | join left b right ih ih' =>
    obtain ⟨hl, hb, hr⟩ := h
    exact ⟨⟨by rintro d ⟨⟩, by simp⟩, ih hl n, hb, ih' hr _⟩
  | sort body keys ih =>
    obtain ⟨hbody, hkeys⟩ := h
    have below := ih hbody n
    rw [Phrase.build]
    cases hn : body.build n with
    | clause info c | triple info l b r =>
      rw [hn] at below
      exact ⟨⟨below.1.1, hkeys⟩, below.2⟩
  | scope group body ih =>
    obtain ⟨hbody, hgroup⟩ := h
    have below := ih hbody n
    have lower : ∀ d ∈ group, lowercase d.1 = d.1 := fun d hd => by
      obtain ⟨⟨_, _, _, spelled⟩, -⟩ := hgroup d hd
      exact spelled.lower
    have declared (m : PrefixMap) (h : ∀ d ∈ m.entries, DeclarationSourced T rules d) :
        ∀ d ∈ (m.withDefaults (.ofList group)).entries, DeclarationSourced T rules d := by
      intro d hd
      rcases PrefixMap.mem_entries_withDefaults (PrefixMap.lower_ofList group) hd with hd | hd
      · exact h d hd
      · exact hgroup d (PrefixMap.mem_entries_ofList lower hd)
    rw [Phrase.build]
    cases hn : body.build n with
    | clause info c | triple info l b r =>
      rw [hn] at below
      exact ⟨⟨declared _ below.1.1, below.1.2⟩, below.2⟩

/-! ### Words -/

/-- Whether a declaration is written as it can be read: its name in one word, if it has one, and its
    identifier in one quoted text. -/
def DeclarationWorded (punctuation : String) (d : String × String) : Prop :=
  (d.1 = "" ∨ IsWord punctuation d.1) ∧ Escaped isInside d.2.toList

instance (punctuation : String) : DecidablePred (DeclarationWorded punctuation) :=
  fun d => inferInstanceAs (Decidable ((d.1 = "" ∨ _) ∧ _))

/-- Whether the declarations and sort keys of a node are written as they can be read. -/
def NodeInfo.Worded (punctuation : String) (info : NodeInfo) : Prop :=
  (∀ d ∈ info.prefixes.entries, DeclarationWorded punctuation d) ∧
    ∀ k ∈ info.sortKeys, k.Worded punctuation

instance (punctuation : String) (info : NodeInfo) : Decidable (info.Worded punctuation) :=
  inferInstanceAs (Decidable ((∀ d ∈ info.prefixes.entries, _) ∧ ∀ k ∈ info.sortKeys, _))

/-- Whether they are at the end of a text, where nothing is written behind the last sort key. -/
def NodeInfo.WordedLast (punctuation : String) (info : NodeInfo) : Prop :=
  (∀ d ∈ info.prefixes.entries, DeclarationWorded punctuation d) ∧
    UpToLast (·.Worded punctuation) (·.WordedLast punctuation) info.sortKeys

instance (punctuation : String) (info : NodeInfo) : Decidable (info.WordedLast punctuation) :=
  inferInstanceAs (Decidable ((∀ d ∈ info.prefixes.entries, _) ∧ UpToLast _ _ info.sortKeys))

/-- Whether all that is written in one piece for a tree is read in one piece, names of relations
    moreover as no keywords. -/
def Node.Worded (punctuation : String) : Node → Prop
  | .clause info c => info.Worded punctuation ∧ c.Worded punctuation
  | .triple info left boolean right =>
    info.Worded punctuation ∧ left.Worded punctuation ∧ boolean.Worded punctuation ∧
      right.Worded punctuation

instance Node.decidableWorded (punctuation : String) : (t : Node) → Decidable (t.Worded punctuation)
  | .clause info c => inferInstanceAs (Decidable (info.Worded punctuation ∧ c.Worded punctuation))
  | .triple info left boolean right =>
    have := left.decidableWorded punctuation
    have := right.decidableWorded punctuation
    inferInstanceAs (Decidable (info.Worded punctuation ∧ left.Worded punctuation ∧
      boolean.Worded punctuation ∧ right.Worded punctuation))

/-- The same for a whole tree, whose last sort key stands at the end. -/
def Node.WordedLast (punctuation : String) : Node → Prop
  | .clause info c => info.WordedLast punctuation ∧ c.Worded punctuation
  | .triple info left boolean right =>
    info.WordedLast punctuation ∧ left.Worded punctuation ∧ boolean.Worded punctuation ∧
      right.Worded punctuation

instance (punctuation : String) : (t : Node) → Decidable (t.WordedLast punctuation)
  | .clause info c =>
    inferInstanceAs (Decidable (info.WordedLast punctuation ∧ c.Worded punctuation))
  | .triple info left boolean right =>
    inferInstanceAs (Decidable (info.WordedLast punctuation ∧ left.Worded punctuation ∧
      boolean.Worded punctuation ∧ right.Worded punctuation))

theorem NodeInfo.Worded.last {info : NodeInfo} (h : info.Worded punctuation) :
    info.WordedLast punctuation :=
  ⟨h.1, .of_forall h.2 fun _ => Index.Worded.last⟩

/-- What can be printed anywhere can be printed at the end of a text. -/
theorem Node.Worded.last {t : Node} (h : t.Worded punctuation) : t.WordedLast punctuation := by
  cases t with
  | clause info c => exact ⟨h.1.last, h.2⟩
  | triple info left b right => exact ⟨h.1.last, h.2⟩

/-! ### Words where names are plain -/

/-- Lower-casing a word gives a word. -/
theorem isWord_lowercase [Harmless punctuation] {s : String}
    (sound : (Token.word s).Sound punctuation) : IsWord punctuation (lowercase s) := by
  obtain ⟨some_char, escaped⟩ := sound.1.word
  exact ⟨lowercase_ne_empty some_char, escaped.lowered (fun _ => isWordChar_of_isAlphanumeric)
    (fun mem => absurd mem sound.2) (.lowercase s)⟩

/-- A token that stands alone does not end with an open backslash. -/
theorem Token.Alone.endsOpen_text {t : Token} (h : t.Alone punctuation) (text : t.isText = true) :
    endsOpen t.text.toList = false := by
  match t, text with
  | .word s, _ => exact h.2
  | .quoted s, _ =>
    obtain ⟨body, rfl, escaped⟩ := h.quoted
    have inside := escaped.endsOpen_append ['"']
    rwa [Token.text, Text.toList_quote, endsOpen.eq_3 _ _ (by simp) (by simp)]

/-- The name of a modifier that was read is a word if it is a bare one. -/
theorem Modifier.worded_of_plain {m : Modifier}
    (sourced : Sourced (Token.Sound defaultWordChars) ModifierSpelling m) (plain : m.Plain) :
    m.Worded defaultWordChars := by
  obtain ⟨u, next, sound, spelled⟩ := sourced
  have worded {s : String} {n : QualifiedName} (split : splitName (lowercase s) = .ok n)
      (sound : (Token.word s).Sound defaultWordChars)
      (plain : ∀ c ∈ n.full.toList, isWordChar defaultWordChars c = true) :
      IsWord defaultWordChars n.text := by
    have word := isWord_lowercase sound
    rw [← full_of_splitName_lowercase split] at word
    rwa [QualifiedName.text, if_pos (isBareWord_eq_true.2 ⟨word.1, plain⟩)]
  cases spelled with
  | plain split _ => exact ⟨worded split (sound (.word _) (by simp)) plain, rfl⟩
  | @valued s name c v next split text =>
    exact ⟨worded split (sound (.word _) (by simp)) plain, (sound v (by simp)).1.endsOpen_text text⟩

theorem worded_of_modifiersSpelling {u : List Token} {next : Option Token} {ms : List Modifier}
    (spelled : ModifiersSpelling u next ms) (sound : ∀ t ∈ u, t.Sound defaultWordChars)
    (plain : ∀ m ∈ ms, m.Plain) : ∀ m ∈ ms, m.Worded defaultWordChars :=
  fun m hm => Modifier.worded_of_plain (sourced_of_sequence spelled sound m hm) (plain m hm)

/-- A plain relation that was read can be printed as a word. -/
theorem Relation.worded_of_plain {r : Relation}
    (sourced : Sourced (Token.Sound defaultWordChars) RelationSpelling r) (plain : r.Plain)
    (simple : ∀ m ∈ r.modifiers, m.Plain) : r.Worded defaultWordChars := by
  obtain ⟨u, next, sound, spelled⟩ := sourced
  cases spelled with
  | comparison refined =>
    exact ⟨.inl ⟨_, rfl⟩, worded_of_modifiersSpelling refined (List.forall_mem_cons.1 sound).2 simple⟩
  | word split refined =>
    obtain ⟨here, later⟩ := List.forall_mem_cons.1 sound
    refine ⟨.inr (isWord_head split (isWord_lowercase here) plain), ?_⟩
    rw [modifiers_ofWord] at simple ⊢
    exact worded_of_modifiersSpelling refined later simple

theorem Boolean.worded_of_plain {b : Boolean}
    (sourced : Sourced (Token.Sound defaultWordChars) BooleanSpelling b)
    (simple : ∀ m ∈ b.modifiers, m.Plain) : b.Worded defaultWordChars := by
  obtain ⟨u, next, sound, ⟨-, refined⟩⟩ := sourced
  exact worded_of_modifiersSpelling refined (List.forall_mem_cons.1 sound).2 simple

theorem Index.worded_of_plain {k : Index}
    (sourced : Sourced (Token.Sound defaultWordChars) (KeySpelling rules) k)
    (simple : ∀ m ∈ k.modifiers, m.Plain) : k.Worded defaultWordChars := by
  obtain ⟨u, next, sound, ⟨named, refined⟩⟩ := sourced
  obtain ⟨here, later⟩ := List.forall_mem_cons.1 sound
  exact ⟨QualifiedName.clear_of_inside (named.inside here.1),
    worded_of_modifiersSpelling refined later simple⟩

/-- All three parts of a clause can be printed. -/
theorem Clause.worded_of_plain {c : Clause}
    (sourced : Sourced (Token.Sound defaultWordChars) (ClauseSpelling rules) c)
    (plain : c.relation.Plain) (simple : ∀ m ∈ c.relation.modifiers, m.Plain) :
    c.Worded defaultWordChars := by
  obtain ⟨u, next, sound, spelled⟩ := sourced
  cases spelled with
  | @full t name u r w term next named _ related _ =>
    have clear := QualifiedName.clear_of_inside (named.inside (sound t List.mem_cons_self).1)
    exact ⟨⟨clear, by simp⟩, Relation.worded_of_plain
      ⟨u, some w, fun t ht => sound t (by simp [ht]), related⟩ plain simple⟩
  | alone =>
    have clear : QualifiedName.Clear defaultWordChars ⟨ContextSet.cqlName, serverChoice⟩ := by
      decide +kernel
    exact ⟨⟨clear, by simp [Clause.ofTerm]⟩, .inl ⟨.eq, rfl⟩, by simp [Clause.ofTerm]⟩

/-- So can declarations and sort keys. -/
theorem NodeInfo.worded_of_plain {info : NodeInfo}
    (sourced : info.Sourced (Token.Sound defaultWordChars) rules)
    (simple : ∀ m ∈ info.modifiers, m.Plain) : info.Worded defaultWordChars := by
  constructor
  · intro d hd
    obtain ⟨⟨u, next, sound, spelled⟩, -⟩ := sourced.1 d hd
    cases spelled with
    | named bound =>
      exact ⟨.inr (isWord_lowercase (sound (.word _) (by simp))),
        inside_of_identifier bound fun t ht => (sound t (by simp [ht])).1⟩
    | unnamed bound _ =>
      exact ⟨.inl rfl, inside_of_identifier bound fun t ht => (sound t (by simp [ht])).1⟩
  · exact fun k hk => Index.worded_of_plain (sourced.2 k hk) fun m hm =>
      simple m (List.mem_flatMap.2 ⟨k, hk, hm⟩)

/-- With the usual punctuation and no dotted capital I, plain relations and modifiers are all that it
    takes. -/
theorem Node.worded_of_plain {t : Node} (sourced : t.Sourced (Token.Sound defaultWordChars) rules)
    (plain : ∀ c ∈ t.clauses, c.relation.Plain) (simple : ∀ m ∈ t.modifiers, m.Plain) :
    t.Worded defaultWordChars := by
  induction t with
  | clause info c =>
    rw [modifiers, List.forall_mem_append, List.forall_mem_append] at simple
    exact ⟨NodeInfo.worded_of_plain sourced.1 simple.1,
      Clause.worded_of_plain sourced.2 (plain c List.mem_cons_self) simple.2.2⟩
  | triple info left b right ih ih' =>
    obtain ⟨attached, hl, hb, hr⟩ := sourced
    rw [clauses, List.forall_mem_append] at plain
    rw [modifiers, List.forall_mem_append, List.forall_mem_append, List.forall_mem_append] at simple
    obtain ⟨here, simple_left, joined, simple_right⟩ := simple
    exact ⟨NodeInfo.worded_of_plain attached here, ih hl plain.1 simple_left,
      Boolean.worded_of_plain hb joined, ih' hr plain.2 simple_right⟩

/-! ### Names on the way to the root -/

/-- Whether no name is declared at a node and again below it, nor one of those in `outer`. -/
def Node.Apart (outer : List String) : Node → Prop
  | .clause info _ => info.prefixes.names.Disjoint outer
  | .triple info left _ right =>
    info.prefixes.names.Disjoint outer ∧ left.Apart (info.prefixes.names ++ outer) ∧
      right.Apart (info.prefixes.names ++ outer)

/-- The names that are declared in one of several groups. -/
def claimed (groups : List Declarations) : List String :=
  groups.flatMap fun group => (PrefixMap.ofList group).names

/-- Fewer names around leave fewer to stay apart from. -/
theorem Node.Apart.mono {t : Node} {outer outer' : List String} (h : t.Apart outer)
    (fewer : outer' ⊆ outer) : t.Apart outer' := by
  induction t generalizing outer outer' with
  | clause info c => exact List.disjoint_of_subset_right fewer h
  | triple info left b right ih ih' =>
    obtain ⟨apart, hl, hr⟩ := h
    have below : info.prefixes.names ++ outer' ⊆ info.prefixes.names ++ outer :=
      List.append_subset.2 ⟨List.subset_append_left _ _,
        fun _ h => List.mem_append_right _ (fewer h)⟩
    exact ⟨List.disjoint_of_subset_right fewer apart, ih hl below, ih' hr below⟩

theorem PrefixMap.names_withDefaults_subset {m outer : PrefixMap} (lower : outer.Lower) :
    (m.withDefaults outer).names ⊆ m.names ++ outer.names := by
  intro name h
  obtain ⟨d, hd, rfl⟩ := List.mem_map.1 h
  rcases mem_entries_withDefaults lower hd with hd | hd
  · exact List.mem_append_left _ (List.mem_map_of_mem hd)
  · exact List.mem_append_right _ (List.mem_map_of_mem hd)

/-- Attaching a group whose names are declared nowhere around. -/
theorem Node.Apart.declare {t : Node} {group : PrefixMap} {outer : List String}
    (h : t.Apart (group.names ++ outer)) (lower : group.Lower)
    (unclaimed : group.names.Disjoint outer) : (t.declare group).Apart outer := by
  have apart {m : PrefixMap} (h : m.names.Disjoint (group.names ++ outer)) :
      (m.withDefaults group).names.Disjoint outer := by
    refine List.disjoint_of_subset_left (PrefixMap.names_withDefaults_subset lower) ?_
    rw [List.disjoint_append_left]
    exact ⟨(List.disjoint_append_right.1 h).2, unclaimed⟩
  cases t with
  | clause info c => exact apart h
  | triple info left b right =>
    obtain ⟨here, hl, hr⟩ := h
    have below : (info.prefixes.withDefaults group).names ++ outer ⊆
        info.prefixes.names ++ (group.names ++ outer) := by
      rw [← List.append_assoc]
      exact List.append_subset.2 ⟨fun _ h => List.mem_append_left _
        (PrefixMap.names_withDefaults_subset lower h), List.subset_append_right _ _⟩
    exact ⟨apart here, hl.mono below, hr.mono below⟩

/-- By induction on the phrase: strict rules have seen to it that no name is declared twice on the
    way up. -/
theorem Phrase.Fits.apart (strict : rules.rejectDuplicatePrefix = true) {p : Phrase} {depth : Nat}
    {groups : List Declarations} (h : p.Fits rules depth groups) (n : Nat) :
    (p.build n).Apart (claimed groups) := by
  have none (outer : List String) : PrefixMap.empty.names.Disjoint outer := List.disjoint_nil_left _
  induction p generalizing depth groups n with
  | clause c => exact none _
  | join left b right ih ih' =>
    obtain ⟨hl, hr, -⟩ := h
    exact ⟨none _, ih hl n, ih' hr _⟩
  | sort body keys ih =>
    have below := ih h n
    rw [Phrase.build]
    cases hn : body.build n with
    | clause info c | triple info l b r =>
      rw [hn] at below
      exact below
  | scope group body ih =>
    cases depth with
    | zero => exact h.elim
    | succ depth =>
      obtain ⟨unclaimed, hbody⟩ := h
      refine (ih hbody n).declare (PrefixMap.lower_ofList group) fun name hname outer => ?_
      obtain ⟨g, hg, mem⟩ := List.mem_flatMap.1 outer
      exact unclaimed strict name hname g hg mem

/-- Declarations in ascending order may be added one after the other. -/
theorem addable_of_ascending {ds : Declarations} {group : PrefixMap}
    (lower : ∀ d ∈ ds, lowercase d.1 = d.1)
    (reserved : ∀ d ∈ ds, rules.rejectDuplicatePrefix = true → ContextSet.reserved? d.1 = none)
    (ascending : (group.entries ++ ds).Pairwise (·.1 < ·.1)) : Addable rules group ds := by
  induction ds generalizing group with
  | nil => trivial
  | cons d ds ih =>
    obtain ⟨first, rest⟩ := List.forall_mem_cons.1 lower
    obtain ⟨free, reserved⟩ := List.forall_mem_cons.1 reserved
    have above : ∀ p ∈ group.entries, p.1 < d.1 :=
      fun p hp => (List.pairwise_append.1 ascending).2.2 p hp d List.mem_cons_self
    have inserted : (group.insert d.1 d.2).entries = group.entries ++ [d] :=
      PrefixMap.entries_insert_of_above first above
    have unbound : group.get? d.1 = none := by
      rw [PrefixMap.get?, first]
      refine List.lookup_eq_none_iff.2 fun p hp => ?_
      exact bne_iff_ne.2 (String.ne_of_lt (above p hp)).symm
    refine ⟨fun strict => ⟨?_, free strict⟩, ih rest reserved ?_⟩
    · rw [PrefixMap.contains_eq, unbound]
      rfl
    · rwa [inserted, ← List.append_cons]

end ContextualQuery
