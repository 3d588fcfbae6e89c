import ContextualQuery.Proofs.Lowercase
import ContextualQuery.Proofs.Reading.Run

/-! How the parts of a query are spelled, as relations between tokens and what they mean.

    Whether tokens mean something may depend on the token behind them: a modifier without a
    comparison ends only where no comparison follows. No more than that one token is looked at. -/

namespace ContextualQuery

open Reading Unicode

/-- What tokens mean, given the token that follows them. -/
abbrev Spelling (α : Type) := List Token → Option Token → α → Prop

/-- The token that follows what stands before `v`, when `next` follows `v`. -/
def ahead (v : List Token) (next : Option Token) : Option Token := v.head?.or next

@[simp] theorem ahead_nil (next : Option Token) : ahead [] next = next := rfl

theorem ahead_none (v : List Token) : ahead v none = v.head? := Option.or_none

@[simp] theorem ahead_cons (t : Token) (v : List Token) (next : Option Token) :
    ahead (t :: v) next = some t := rfl

@[simp] theorem ahead_append (v w : List Token) (next : Option Token) :
    ahead (v ++ w) next = ahead v (ahead w next) := by
  cases v <;> rfl

/-- The first token of what is read, or of what follows. -/
theorem head?_append_eq_ahead (v rest : List Token) :
    (v ++ rest).head? = ahead v rest.head? := by
  cases v <;> rfl

/-- Item after item, as long as the next token can start one. -/
inductive Sequence {α : Type} (p : Token → Bool) (S : Spelling α) : Spelling (List α)
  | nil {next} (ends : next.any p = false) : Sequence p S [] next []
  | cons {u v next a as} (first : S u (ahead v next) a) (rest : Sequence p S v next as) :
      Sequence p S (u ++ v) next (a :: as)

/-- Whatever holds of items by their tokens holds of each item of a sequence. -/
theorem forall_of_sequence {α : Type} {p : Token → Bool} {S : Spelling α} {T : Token → Prop}
    {P : α → Prop} {u : List Token} {next : Option Token} {xs : List α}
    (each : ∀ u next x, S u next x → (∀ t ∈ u, T t) → P x) (h : Sequence p S u next xs)
    (tokens : ∀ t ∈ u, T t) : ∀ x ∈ xs, P x := by
  induction h with
  | nil => simp
  | cons first _ ih =>
    rw [List.forall_mem_append] at tokens
    exact List.forall_mem_cons.2 ⟨each _ _ _ first tokens.1, ih tokens.2⟩

theorem Sequence.imp {α : Type} {p p' : Token → Bool} {S S' : Spelling α} {u : List Token}
    {next : Option Token} {as : List α} (starts : next.any p = false → next.any p' = false)
    (each : ∀ u next a, S u next a → S' u next a) (h : Sequence p S u next as) :
    Sequence p' S' u next as := by
  induction h with
  | nil ends => exact .nil (starts ends)
  | cons first _ ih => exact .cons (each _ _ _ first) (ih starts)

/-- Behind a sequence nothing stands that could be another item. -/
theorem Sequence.ends {α : Type} {p : Token → Bool} {S : Spelling α} {u : List Token}
    {next : Option Token} {as : List α} (h : Sequence p S u next as) : next.any p = false := by
  induction h with
  | nil ends => exact ends
  | cons _ _ ih => exact ih

/-! ### Keywords -/

theorem Token.isText_of_isBoolean {t : Token} (h : t.isBoolean = true) : t.isText = true := by
  cases t <;> first | rfl | simp [Token.isBoolean] at h

theorem Token.isText_of_isWord {t : Token} {keyword : String} (h : t.isWord keyword = true) :
    t.isText = true := by
  cases t <;> first | rfl | simp [Token.isWord] at h

/-- `sortby` is no boolean. -/
theorem Token.isBoolean_of_sortWord {t : Token} (h : t.isWord sortWord = true) :
    t.isBoolean = false := by
  cases t with
  | word s =>
    have fold : Text.fold s = Text.fold sortWord := by simpa [isWord, Text.sameFold] using h
    rw [isBoolean, Connective.ofWord?, fold]
    decide
  | _ => rfl

/-! ### Names and modifiers -/

/-- The token of a name. -/
inductive NameSpelling (rules : Rules) : Token → QualifiedName → Prop
  | word {s name} (split : splitName s = .ok name) : NameSpelling rules (.word s) name
  | quoted {s name} (allowed : rules.rejectQuotedName = false)
      (split : splitName (Text.unquote s) = .ok name) : NameSpelling rules (.quoted s) name

/-- A modifier. A comparison behind its name always belongs to it. -/
inductive ModifierSpelling : Spelling Modifier
  | plain {s name next} (split : splitName (lowercase s) = .ok name)
      (ends : next.any Token.isComparison = false) :
      ModifierSpelling [.slash, .word s] next { name }
  | valued {s name c v next} (split : splitName (lowercase s) = .ok name)
      (text : v.isText = true) :
      ModifierSpelling [.slash, .word s, .comparison c, v] next
        { name, comparison := some c, value := v.text }

/-- Modifiers, one behind the other. -/
abbrev ModifiersSpelling : Spelling (List Modifier) := Sequence (· == .slash) ModifierSpelling

/-! ### Relations, booleans, sort keys -/

/-- A relation with its modifiers. -/
inductive RelationSpelling : Spelling Relation
  | comparison {c u next modifiers} (refined : ModifiersSpelling u next modifiers) :
      RelationSpelling (.comparison c :: u) next { kind := .comparison c, modifiers }
  | word {s name u next modifiers} (split : splitName (lowercase s) = .ok name)
      (refined : ModifiersSpelling u next modifiers) :
      RelationSpelling (.word s :: u) next (.ofWord (lowercase s) modifiers)

/-- A boolean with its modifiers. -/
inductive BooleanSpelling : Spelling Boolean
  | word {s connective u next modifiers} (joins : Connective.ofWord? s = some connective)
      (refined : ModifiersSpelling u next modifiers) :
      BooleanSpelling (.word s :: u) next { connective, modifiers }

/-- A sort key with its modifiers. -/
inductive KeySpelling (rules : Rules) : Spelling Index
  | key {t name u next modifiers} (named : NameSpelling rules t name)
      (refined : ModifiersSpelling u next modifiers) :
      KeySpelling rules (t :: u) next { name, modifiers }

/-- Sort keys: every text that stands here is one. -/
abbrev KeysSpelling (rules : Rules) : Spelling (List Index) :=
  Sequence Token.isText (KeySpelling rules)

/-! ### Declarations -/

/-- A slash inside an identifier, with the word behind it if there is one. -/
inductive SegmentSpelling : Spelling String
  | slash {next} (ends : ∀ s, next ≠ some (.word s)) : SegmentSpelling [.slash] next "/"
  | word {s next} : SegmentSpelling [.slash, .word s] next ("/" ++ s)

/-- An identifier of a context set. -/
inductive IdentifierSpelling (rules : Rules) : Spelling String
  | quoted {s next} (allowed : rules.rejectQuotedName = false) :
      IdentifierSpelling rules [.quoted s] next (Text.unquote s)
  | path {s u next segments} (path : Sequence (· == .slash) SegmentSpelling u next segments) :
      IdentifierSpelling rules (.word s :: u) next (s ++ String.join segments)

/-- A declaration: a short name and the identifier it is bound to. -/
inductive DeclarationSpelling (rules : Rules) : Spelling (String × String)
  | named {s u next identifier} (bound : IdentifierSpelling rules u next identifier) :
      DeclarationSpelling rules (.comparison .gt :: .word s :: .comparison .eq :: u) next
        (lowercase s, identifier)
  | unnamed {u next identifier} (bound : IdentifierSpelling rules u next identifier)
      (nameless : ahead u.tail next ≠ some (.comparison .eq)) :
      DeclarationSpelling rules (.comparison .gt :: u) next ("", identifier)

/-- A declared name is in lower case, the missing one is empty. -/
theorem DeclarationSpelling.lower {rules : Rules} {u : List Token} {next : Option Token}
    {d : String × String} (h : DeclarationSpelling rules u next d) : lowercase d.1 = d.1 := by
  cases h with
  | named => exact lowercase_lowercase _
  | unnamed => rfl

/-- Declarations as they are written, in order. -/
abbrev Declarations := List (String × String)

/-- Whether declarations may be added to a group: with strict rules no name may be reserved or
    declared before in the same group. -/
def Addable (rules : Rules) : PrefixMap → Declarations → Prop
  | _, [] => True
  | group, (name, identifier) :: rest =>
    (rules.rejectDuplicatePrefix = true →
      group.contains name = false ∧ ContextSet.reserved? name = none) ∧
    Addable rules (group.insert name identifier) rest

/-- Lenient rules accept any group. -/
theorem addable_of_lenient {rules : Rules} (lenient : rules.rejectDuplicatePrefix = false)
    (ds : Declarations) : ∀ group, Addable rules group ds := by
  induction ds with
  | nil => exact fun _ => trivial
  | cons d ds ih => exact fun group => ⟨by simp [lenient], ih _⟩

/-- A group of declarations. -/
inductive GroupSpelling (rules : Rules) : Spelling Declarations
  | group {u next ds} (written : Sequence (· == .comparison .gt) (DeclarationSpelling rules) u next ds)
      (addable : Addable rules .empty ds) : GroupSpelling rules u next ds

/-! ### Clauses -/

/-- A term that passes the check is kept as it is written. -/
theorem checkTerm_eq_ok {rules : Rules} {raw inner : String} {term : Term}
    (h : checkTerm rules raw inner = .ok term) :
    term.text = raw ∧ escapesAreSpecial inner.toList = true := by
  unfold checkTerm at h
  split at h
  · contradiction
  · split at h
    · contradiction
    · split at h
      next special => exact ⟨congrArg Term.text (Except.ok.inj h).symm, special⟩
      next => contradiction

/-- A clause: index, relation and term, or a term alone where nothing else can follow. -/
inductive ClauseSpelling (rules : Rules) : Spelling Clause
  | full {t name u relation w term next} (named : NameSpelling rules t name)
      (goesOn : ∀ x ∈ u.head?, endsTerm (some x) = false)
      (related : RelationSpelling u (some w) relation) (searched : termOf rules (some w) = .ok term) :
      ClauseSpelling rules (t :: (u ++ [w])) next { index := { name }, relation, term }
  | alone {w term next} (ends : endsTerm next = true) (searched : termOf rules (some w) = .ok term) :
      ClauseSpelling rules [w] next (.ofTerm term)

/-! ### First tokens -/

theorem BooleanSpelling.head {u : List Token} {next : Option Token} {b : Boolean}
    (h : BooleanSpelling u next b) : ∃ t v, u = t :: v ∧ t.isBoolean = true := by
  obtain ⟨joins, -⟩ := h
  exact ⟨_, _, rfl, by simp [Token.isBoolean, joins]⟩

/-- So a boolean keeps the loop over operands going. -/
theorem BooleanSpelling.goesOn {u : List Token} {next : Option Token} {b : Boolean}
    (h : BooleanSpelling u next b) (rest : List Token) :
    (u ++ rest).head?.any Token.isBoolean = true := by
  obtain ⟨t, v, rfl, joins⟩ := h.head
  simpa using joins

/-- Declarations start with `>`. -/
theorem GroupSpelling.head {rules : Rules} {u : List Token} {next : Option Token}
    {group : Declarations} (h : GroupSpelling rules u next group) (some_name : group ≠ []) :
    ∃ v, u = .comparison .gt :: v := by
  obtain ⟨written, -⟩ := h
  cases written with
  | nil => exact absurd rfl some_name
  | cons first _ => cases first <;> exact ⟨_, rfl⟩

/-- A clause starts with none of `(`, `>` and `/`. -/
theorem ClauseSpelling.head {rules : Rules} {u : List Token} {next : Option Token} {c : Clause}
    (h : ClauseSpelling rules u next c) :
    ∃ t v, u = t :: v ∧ t ≠ .openParen ∧ t ≠ .comparison .gt ∧ t ≠ .slash := by
  cases h with
  | full named _ _ _ => cases named <;> exact ⟨_, _, rfl, by simp, by simp, by simp⟩
  | @alone w _ _ _ searched =>
    refine ⟨w, [], rfl, ?_, ?_, ?_⟩ <;> (rintro rfl; simp [termOf] at searched)

end ContextualQuery
