import ContextualQuery.Proofs.Reading.Closing
import ContextualQuery.Proofs.Reading.Unambiguous
import ContextualQuery.Proofs.RoundTrip.Trees
import ContextualQuery.Proofs.Scoping
import ContextualQuery.Proofs.Strictness

/-! The check for duplicate declarations.

    The check is made in two steps, against the group that is being read and against the groups
    around it when its scope is entered. Together they refuse exactly the phrases in which a group
    clashes with itself or with those around it (`fits_checked_iff`); groups that are not open
    at one clause have nothing to do with each other (`clashes_iff_notes`).

        >a="1" (>a="2" x)           refused: inside the group that declares it
        (>a="1" x) and (>a="2" y)   accepted: side by side -/

namespace ContextualQuery

open Reading Unicode

variable {rules : Rules} {source : String} {m : PrefixMap} {name : String}

/-- The names that a group declares, in the order in which they are written. -/
def Declarations.names (group : Declarations) : List String := group.map (·.1)

theorem Declarations.names_cons (d : String × String) (group : Declarations) :
    Declarations.names (d :: group) = d.1 :: group.names := rfl

/-- Whether a group declares a name twice, or one that is reserved or declared in a group around
    it. -/
def Declarations.Clashes (around : List Declarations) (group : Declarations) : Prop :=
  ¬group.names.Nodup ∨ ∃ name ∈ group.names,
    (ContextSet.reserved? name).isSome = true ∨ ∃ outer ∈ around, name ∈ outer.names

/-- Whether one of the groups of a phrase inside the groups `around` clashes. -/
def Phrase.Clashes (around : List Declarations) : Phrase → Prop
  | .clause _ => False
  | .join left _ right => left.Clashes around ∨ right.Clashes around
  | .sort body _ => body.Clashes around
  | .scope group body => group.Clashes around ∨ body.Clashes (group :: around)

/-- Whether one of several open groups, innermost first, clashes with itself or with those around
    it. -/
def ClashAmong : List Declarations → Prop
  | [] => False
  | group :: around => group.Clashes around ∨ ClashAmong around

/-- Whether the tokens of a text spell a phrase. -/
def Spelled (rules : Rules) (source : String) (p : Phrase) : Prop :=
  ∃ ts, Lexemes.ofText rules.wordChars source = { tokens := ts } ∧ Spells rules .query ts none p

/-- Rules with the check for duplicate declarations on or off. -/
abbrev Rules.checkingDuplicates (rules : Rules) (rejectDuplicatePrefix : Bool) : Rules :=
  { rules with rejectDuplicatePrefix }

/-! ### Names of maps -/

theorem Dictionary.mem_keys_insertEntry {key value k : String} (entries : List (String × String)) :
    k ∈ (insertEntry key value entries).map (·.1) ↔ k = key ∨ k ∈ entries.map (·.1) := by
  induction entries with
  | nil => simp [insertEntry]
  | cons p rest ih =>
    unfold insertEntry
    split
    · simp
    · split
      next same => simp [same]
      next => simp only [List.map_cons, List.mem_cons, ih, or_left_comm]

namespace PrefixMap

theorem mem_names_insert {n identifier : String} (lower : lowercase n = n) :
    name ∈ (m.insert n identifier).names ↔ name = n ∨ name ∈ m.names := by
  change name ∈ (Dictionary.insertEntry (lowercase n) identifier m.entries).map (·.1) ↔ _
  rw [lower, Dictionary.mem_keys_insertEntry]
  rfl

theorem contains_eq_false_iff (lower : lowercase name = name) :
    m.contains name = false ↔ name ∉ m.names := by
  rw [contains_eq, Option.isSome_eq_false_iff, Option.isNone_iff_eq_none, get?, lower]
  refine List.lookup_eq_none_iff.trans ?_
  simp only [names, List.mem_map, not_exists, not_and, bne_iff_ne]
  exact forall₂_congr fun p _ => ne_comm

theorem mem_names_foldl_insert {group : Declarations} (lower : group.Lower) :
    ∀ m : PrefixMap, name ∈ (group.foldl (fun m p => m.insert p.1 p.2) m).names ↔
      name ∈ group.names ∨ name ∈ m.names := by
  induction group with
  | nil => simp [Declarations.names]
  | cons d group ih =>
    obtain ⟨first, rest⟩ := List.forall_mem_cons.1 lower
    intro m
    rw [List.foldl_cons, ih rest, mem_names_insert first, Declarations.names_cons, List.mem_cons,
      or_left_comm, or_assoc]

theorem mem_names_ofList {group : Declarations} (lower : group.Lower) :
    name ∈ (ofList group).names ↔ name ∈ group.names :=
  (mem_names_foldl_insert lower empty).trans (or_iff_left (by rintro ⟨⟩))

end PrefixMap

/-! ### Groups -/

theorem addable_iff (checks : rules.rejectDuplicatePrefix = true) {group : Declarations}
    (lower : group.Lower) : ∀ m : PrefixMap, Addable rules m group ↔
      group.names.Nodup ∧ ∀ name ∈ group.names, ContextSet.reserved? name = none ∧ name ∉ m.names := by
  induction group with
  | nil => simp [Addable, Declarations.names]
  | cons d group ih =>
    obtain ⟨first, rest⟩ := List.forall_mem_cons.1 lower
    intro m
    rw [Addable, ih rest, Declarations.names_cons, List.nodup_cons, List.forall_mem_cons,
      PrefixMap.contains_eq_false_iff first]
    simp only [checks, true_imp_iff, PrefixMap.mem_names_insert first]
    constructor
    · rintro ⟨⟨new, free⟩, nodup, later⟩
      refine ⟨⟨fun twice => (later _ twice).2 (.inl rfl), nodup⟩, ⟨free, new⟩, fun name mem => ?_⟩
      exact ⟨(later name mem).1, fun old => (later name mem).2 (.inr old)⟩
    · rintro ⟨⟨once, nodup⟩, ⟨free, new⟩, later⟩
      refine ⟨⟨new, free⟩, nodup, fun name mem => ⟨(later name mem).1, ?_⟩⟩
      rintro (rfl | old)
      · exact once mem
      · exact (later name mem).2 old

theorem unclaimed_iff {around : List Declarations} {group : Declarations} (lower : group.Lower)
    (lower' : ∀ outer ∈ around, outer.Lower) :
    Unclaimed around group ↔ ∀ name ∈ group.names, ∀ outer ∈ around, name ∉ outer.names := by
  unfold Unclaimed
  simp only [PrefixMap.mem_names_ofList lower]
  exact forall₄_congr fun name _ outer mem => not_congr (PrefixMap.mem_names_ofList (lower' outer mem))

theorem not_clashes_iff (checks : rules.rejectDuplicatePrefix = true) {around : List Declarations}
    {group : Declarations} (lower : group.Lower) (lower' : ∀ outer ∈ around, outer.Lower) :
    ¬group.Clashes around ↔ Addable rules .empty group ∧ Unclaimed around group := by
  have unbound (name : String) : name ∉ PrefixMap.empty.names := by rintro ⟨⟩
  simp only [addable_iff checks lower, unclaimed_iff lower lower', Declarations.Clashes, unbound,
    not_or, not_not, not_exists, not_and, not_false_eq_true, and_true, Bool.not_eq_true,
    Option.isSome_eq_false_iff, Option.isNone_iff_eq_none, and_assoc, forall_and]

/-! ### Phrases -/

/-- With the check, a phrase is within the rules where it is without, and no group clashes. -/
theorem fits_checked_iff {p : Phrase} : ∀ {depth : Nat} {around : List Declarations}, p.Lower →
    (∀ outer ∈ around, outer.Lower) →
      (p.Groups (Addable (rules.checkingDuplicates true) .empty) ∧
          p.Fits (rules.checkingDuplicates true) depth around ↔
        p.Fits (rules.checkingDuplicates false) depth around ∧ ¬p.Clashes around) := by
  induction p with
  | clause c => simp [Phrase.Groups, Phrase.Fits, Phrase.Clashes]
  | join left b right ih ih' =>
    rintro depth around ⟨lower, lower'⟩ outside
    have first := @ih depth around lower outside
    have second := @ih' depth around lower' outside
    simp only [Phrase.Groups, Phrase.Fits, Phrase.Clashes]
    tauto
  | sort body keys ih => exact ih
  | scope group body ih =>
    rintro depth around ⟨lower, lower'⟩ outside
    cases depth with
    | zero => simp [Phrase.Fits]
    | succ depth =>
      have below := @ih depth (group :: around) lower' (List.forall_mem_cons.2 ⟨lower, outside⟩)
      have here : ¬group.Clashes around ↔
          Addable (rules.checkingDuplicates true) .empty group ∧ Unclaimed around group :=
        not_clashes_iff rfl lower outside
      simp only [Phrase.Groups, Phrase.Fits, Phrase.Clashes, true_imp_iff, Bool.false_eq_true,
        false_imp_iff, true_and]
      tauto

/-- A group clashes exactly if it does among the groups that are open at some clause. -/
theorem clashes_iff_notes (p : Phrase) (around : List Declarations) (n : Nat) :
    (∃ note ∈ p.notes around n, ClashAmong note.groups) ↔ p.Clashes around ∨ ClashAmong around := by
  induction p generalizing around n with
  | clause c => simp [Phrase.notes, Phrase.Clashes]
  | join left b right ih ih' =>
    simp only [Phrase.notes, List.mem_append, or_and_right, exists_or, ih, ih', Phrase.Clashes]
    tauto
  | sort body keys ih => exact ih around n
  | scope group body ih =>
    rw [Phrase.notes, ih, Phrase.Clashes, ClashAmong, ← or_assoc]
    tauto

/-! ### Trees -/

/-- Whether all names that are declared somewhere in a tree are as asked. -/
def Node.Declares (P : String → Prop) : Node → Prop
  | .clause info _ => ∀ name ∈ info.prefixes.names, P name
  | .triple info left _ right =>
    (∀ name ∈ info.prefixes.names, P name) ∧ left.Declares P ∧ right.Declares P

theorem declares_build {P : String → Prop} {p : Phrase} (lower : p.Lower)
    (h : p.Groups fun group => ∀ name ∈ group.names, P name) (n : Nat) :
    (p.build n).Declares P := by
  have none : ∀ name ∈ PrefixMap.empty.names, P name := by rintro name ⟨⟩
  induction p generalizing n with
  | clause c => exact none
  | join left b right ih ih' => exact ⟨none, ih lower.1 h.1 n, ih' lower.2 h.2 _⟩
  | sort body keys ih =>
    have below := ih lower h n
    rw [Phrase.build]
    cases hn : body.build n with
    | clause info c | triple info l b r =>
      rw [hn] at below
      exact below
  | scope group body ih =>
    have below := ih lower.2 h.2 n
    -- The group is attached to the root of what was built; nodes below keep what they declare.
    have declared (m : PrefixMap) (h' : ∀ name ∈ m.names, P name) :
        ∀ name ∈ (m.withDefaults (.ofList group)).names, P name := by
      intro name mem
      rcases List.mem_append.1
        (PrefixMap.names_withDefaults_subset (PrefixMap.lower_ofList group) mem) with mem | mem
      · exact h' name mem
      · exact h.1 name ((PrefixMap.mem_names_ofList lower.1).1 mem)
    rw [Phrase.build]
    cases hn : body.build n with
    | clause info c =>
      rw [hn] at below
      exact declared _ below
    | triple info l b r =>
      rw [hn] at below
      exact ⟨declared _ below.1, below.2⟩

theorem Node.Declares.of_mem_places {P : String → Prop} {t : Node} {parent : Option Nat}
    {around : Scope} {place : Place} (h : t.Declares P) (mem : place ∈ t.places parent around) :
    ∀ name ∈ place.node.prefixes.names, P name := by
  induction t generalizing parent around with
  | clause info c =>
    obtain rfl := List.mem_singleton.1 mem
    exact h
  | triple info l b r ih ih' =>
    rcases List.mem_cons.1 mem with rfl | mem
    · exact h.1
    · rcases List.mem_append.1 mem with mem | mem
      · exact ih h.2.1 mem
      · exact ih' h.2.2 mem

theorem Node.Apart.of_mem_places {t : Node} {outer : List String} {parent : Option Nat}
    {around : Scope} {place : Place} (h : t.Apart outer)
    (known : ∀ m ∈ around.enclosing, m.names ⊆ outer) (mem : place ∈ t.places parent around) :
    ∀ m ∈ place.around.enclosing, place.node.prefixes.names.Disjoint m.names := by
  induction t generalizing outer parent around with
  | clause info c =>
    obtain rfl := List.mem_singleton.1 mem
    exact fun m hm => List.disjoint_of_subset_right (known m hm) h
  | triple info l b r ih ih' =>
    have inside : ∀ m ∈ (around.enter info.prefixes).enclosing,
        m.names ⊆ info.prefixes.names ++ outer :=
      List.forall_mem_cons.2 ⟨List.subset_append_left _ _,
        fun m hm => List.subset_append_of_subset_right _ (known m hm)⟩
    rcases List.mem_cons.1 mem with rfl | mem
    · exact fun m hm => List.disjoint_of_subset_right (known m hm) h.1
    · rcases List.mem_append.1 mem with mem | mem
      · exact ih h.2.1 inside mem
      · exact ih' h.2.2 inside mem

/-! ### Texts -/

theorem agree_checkingDuplicates (on off : Bool) :
    (rules.checkingDuplicates on).Agree (rules.checkingDuplicates off) := ⟨rfl, rfl⟩

/-- With the check, a text is the query that it is without, if no group of its phrase clashes. -/
theorem parse_checked_iff {p : Phrase} {q : Query}
    (spelled : Spelled (rules.checkingDuplicates false) source p)
    (read : parse (rules.checkingDuplicates false) source = .ok q) :
    ∀ q', parse (rules.checkingDuplicates true) source = .ok q' ↔ ¬p.Clashes [] ∧ q' = q := by
  obtain ⟨ts, lexed, spelled⟩ := spelled
  have lower : p.Lower := spelled.lower (by simp)
  have same {p' : Phrase} (h : Spells (rules.checkingDuplicates false) .query ts none p') : p = p' :=
    spelled.eq h
  obtain ⟨ts', p', lexed', spelled', fits, rfl⟩ := parse_eq_ok.1 read
  obtain rfl : ts = ts' := congrArg (·.tokens) (lexed.symm.trans lexed')
  obtain rfl := same spelled'
  intro q'
  rw [parse_eq_ok]
  constructor
  · rintro ⟨ts', p', lexed', checked, fits', rfl⟩
    obtain rfl : ts = ts' := congrArg (·.tokens) (lexed.symm.trans lexed')
    have allowed := addable_hereditary.holds checked (by simp) (by simp)
    -- What the check lets pass is spelled without it as well, and a text spells one phrase only.
    have unchecked := (checked.change (agree_checkingDuplicates true false)
      (allowed.mono fun group _ => addable_of_lenient rfl group .empty)).2 none (.refl none)
    obtain rfl := same unchecked
    exact ⟨((fits_checked_iff lower (by simp)).1 ⟨allowed, fits'⟩).2, rfl⟩
  · rintro ⟨apart, rfl⟩
    obtain ⟨allowed, fits'⟩ := (fits_checked_iff lower (by simp)).2 ⟨fits, apart⟩
    have checked := (spelled.change (agree_checkingDuplicates false true) allowed).2 none (.refl none)
    exact ⟨ts, p, lexed, checked, fits', rfl⟩

/-- Turning the check on refuses a text with the code of duplicates, or changes nothing. -/
theorem parse_checked_or (rules : Rules) (source : String) :
    parse (rules.checkingDuplicates true) source = parse (rules.checkingDuplicates false) source ∨
      ∃ d, parse (rules.checkingDuplicates true) source = .error d ∧ d.code.number = 45 := by
  have stricter : (rules.checkingDuplicates true).Stricter (rules.checkingDuplicates false) :=
    ⟨id, id, fun _ => rfl, rfl, rfl, rfl⟩
  rw [parse_eq_attempt, parse_eq_attempt]
  obtain same | ⟨f, refused, separates⟩ := stricter.tightens.attempt_eq source
  · exact .inl (by rw [same])
  · refine .inr ⟨f.diagnostic source, by rw [refused]; rfl, ?_⟩
    obtain ⟨-, differ⟩ | ⟨-, differ⟩ | ⟨number, -⟩ := differ_of_separates separates
    · exact absurd rfl differ
    · exact absurd rfl differ
    · exact number

/-- The names of a tree that is read with the check are not reserved, and none is declared again on
    the way to the root. -/
theorem names_of_parse_checked {q : Query} (checks : rules.rejectDuplicatePrefix = true)
    (read : parse rules source = .ok q) :
    ∀ place ∈ q.places, ∀ name ∈ place.node.prefixes.names,
      ContextSet.reserved? name = none ∧ ∀ m ∈ place.around.enclosing, name ∉ m.names := by
  obtain ⟨ts, p, lexed, spelled, fits, rfl⟩ := parse_eq_ok.1 read
  have lower : p.Lower := spelled.lower (by simp)
  have allowed := addable_hereditary.holds spelled (by simp) (by simp)
  have free : p.Groups fun group => ∀ name ∈ group.names, ContextSet.reserved? name = none := by
    refine allowed.mono fun group addable name mem => ?_
    obtain ⟨d, hd, rfl⟩ := List.mem_map.1 mem
    exact addable.reserved d hd checks
  intro place hplace name mem
  refine ⟨(declares_build lower free 0).of_mem_places hplace name mem, fun m hm again => ?_⟩
  exact (fits.apart checks 0).of_mem_places (by simp [Query.scope]) hplace m hm mem again

/-- The check for duplicates is exact. Where a text is a query without it, the text spells one phrase,
    and with the check it is refused, with the code of duplicates, exactly if a group of that phrase
    clashes with itself or with a group around it. All such groups are open at one clause. A text that
    passes the check is the same query, and no name in it is reserved or declared again further
    up. -/
theorem parse_checkingDuplicates (rules : Rules) (source : String) :
    (∀ q, parse (rules.checkingDuplicates false) source = .ok q →
      ∃ p notes, (∀ p', Spelled (rules.checkingDuplicates false) source p' ↔ p' = p) ∧
        observe (rules.checkingDuplicates false) source = .ok (q, notes) ∧
        ((∃ d, parse (rules.checkingDuplicates true) source = .error d ∧ d.code.number = 45) ↔
          p.Clashes []) ∧
        (¬p.Clashes [] → parse (rules.checkingDuplicates true) source = .ok q) ∧
        (p.Clashes [] ↔ ∃ note ∈ notes, ClashAmong note.groups)) ∧
      ∀ q, parse (rules.checkingDuplicates true) source = .ok q →
        ∀ place ∈ q.places, ∀ name ∈ place.node.prefixes.names,
          ContextSet.reserved? name = none ∧ ∀ m ∈ place.around.enclosing, name ∉ m.names := by
  refine ⟨fun q read => ?_, fun q => names_of_parse_checked rfl⟩
  obtain ⟨ts, p, lexed, spelled, fits, rfl⟩ := parse_eq_ok.1 read
  have spells : Spelled (rules.checkingDuplicates false) source p := ⟨ts, lexed, spelled⟩
  have checked := parse_checked_iff spells read
  refine ⟨p, p.notes [] 0, fun p' => ⟨?_, fun h => h ▸ spells⟩,
    observe_eq_ok.2 ⟨ts, p, lexed, spelled, fits, rfl, rfl⟩, ?_,
    fun apart => (checked _).2 ⟨apart, rfl⟩, by simp [clashes_iff_notes, ClashAmong]⟩
  · rintro ⟨ts', lexed', spelled'⟩
    obtain rfl : ts = ts' := congrArg (·.tokens) (lexed.symm.trans lexed')
    exact spelled'.eq spelled
  · constructor
    · rintro ⟨d, refused, -⟩
      by_contra apart
      cases refused.symm.trans ((checked _).2 ⟨apart, rfl⟩)
    · intro clash
      obtain same | refused := parse_checked_or rules source
      · exact absurd clash ((checked _).1 (same.trans read)).1
      · exact refused

/-- A name declared inside a group that declares it in another case, a reserved name, and the same name
    declared on both sides of a boolean. -/
theorem parse_checkingDuplicates_nested :
    (∀ source ∈ [">a=\"1\" (>A=\"2\" x)", ">a=\"1\" >DC=\"2\" x"], ∃ p d,
      Spelled (Rules.checkingDuplicates {} false) source p ∧ p.Clashes [] ∧
        parse (Rules.checkingDuplicates {} true) source = .error d ∧ d.code.number = 45) ∧
      ∃ p q, Spelled (Rules.checkingDuplicates {} false) "(>a=\"1\" x) and (>a=\"2\" y)" p ∧
        ¬p.Clashes [] ∧
        parse (Rules.checkingDuplicates {} true) "(>a=\"1\" x) and (>a=\"2\" y)" = .ok q := by
  have accepted : ∀ source ∈ [">a=\"1\" (>A=\"2\" x)", ">a=\"1\" >DC=\"2\" x",
      "(>a=\"1\" x) and (>a=\"2\" y)"],
      (parse (Rules.checkingDuplicates {} false) source).isOk = true := by
    decide +kernel
  have refused : ∀ source ∈ [">a=\"1\" (>A=\"2\" x)", ">a=\"1\" >DC=\"2\" x"],
      (parse (Rules.checkingDuplicates {} true) source).isOk = false := by
    decide +kernel
  constructor
  · intro source mem
    obtain ⟨q, read⟩ := exists_eq_ok (accepted source (List.mem_append_left [_] mem))
    obtain ⟨p, notes, only, -, clash, same, -⟩ := (parse_checkingDuplicates {} source).1 q read
    have clashes : p.Clashes [] := by
      by_contra apart
      have refused := refused source mem
      rw [same apart] at refused
      cases refused
    obtain ⟨d, error, number⟩ := clash.2 clashes
    exact ⟨p, d, (only p).2 rfl, clashes, error, number⟩
  · obtain ⟨q, read⟩ := exists_eq_ok (accepted "(>a=\"1\" x) and (>a=\"2\" y)" (by simp))
    obtain ⟨q', checked⟩ := exists_eq_ok
      (show (parse (Rules.checkingDuplicates {} true) "(>a=\"1\" x) and (>a=\"2\" y)").isOk = true by
        decide +kernel)
    obtain ⟨p, notes, only, -, clash, -⟩ :=
      (parse_checkingDuplicates {} "(>a=\"1\" x) and (>a=\"2\" y)").1 q read
    refine ⟨p, q', (only p).2 rfl, fun clashes => ?_, checked⟩
    obtain ⟨d, refused, -⟩ := clash.2 clashes
    cases checked.symm.trans refused

end ContextualQuery
