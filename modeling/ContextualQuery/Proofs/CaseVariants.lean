import ContextualQuery.Proofs.Lexing.Case
import ContextualQuery.Proofs.Reading.Text
import Mathlib.Data.List.Forall2

/-! What ASCII case means for a query.

    A text in another case has its tokens in that case, and they are read step by step as they are.
    So two texts that differ in nothing but case are both refused, for the same reason, or both read,
    as trees of one shape. What is left of the case in such a tree are its terms, the values of its
    modifiers, its identifiers and its names without a set (`parse_of_fold_eq`). -/

namespace ContextualQuery

open Reading

variable {c : Char → Char} {rules : Rules} {a b : String}

/-! ### Outcomes in another case -/

theorem fold_text_recase (h : Recases c) (t : Token) :
    Text.fold (t.recase c).text = Text.fold t.text := by
  cases t with
  | word s | quoted s => exact Text.fold_recase h s
  | symbol x => exact (congrArg Text.fold (Text.recase_toString x).symm).trans (Text.fold_recase h _)
  | openParen | closeParen | slash | comparison => rfl

theorem fold_textOf_recase (h : Recases c) (found : Option Token) :
    Text.fold (Fault.textOf (found.map (Token.recase c))) = Text.fold (Fault.textOf found) := by
  cases found with
  | none => rfl
  | some t => exact fold_text_recase h t

@[simp] theorem Fault.code_recase (f : Fault) : (f.recase c).code = f.code := by
  cases f <;> rfl

theorem fold_append_congr {s s' t t' : String} (left : Text.fold s = Text.fold s')
    (right : Text.fold t = Text.fold t') : Text.fold (s ++ t) = Text.fold (s' ++ t') := by
  rw [Text.fold_append, Text.fold_append, left, right]

/-- The details of a fault change in case only. -/
theorem Fault.fold_details_recase (h : Recases c) (f : Fault) :
    Text.fold (f.recase c).details = Text.fold f.details := by
  cases f with
  | tooDeep | endBeforeTerm | emptyModifier | noSortKeys | duplicatePrefix => rfl
  | unterminated | quotedName | emptyTerm | badEscape => exact Text.fold_recase h _
  | severalDots | emptySet | onlyAnchors => exact fold_append_congr rfl (Text.fold_recase h _)
  | bareOperator found => exact fold_text_recase h found
  | leftover found => exact fold_append_congr (fold_append_congr rfl (fold_text_recase h found)) rfl
  | unexpected found => exact fold_textOf_recase h found
  | _ found => exact fold_append_congr rfl (fold_textOf_recase h found)

theorem Reading.start_recase (l : Lexemes) :
    start (l.recase c) = recaseExcept c (State.recase c 0) (start l) := by
  obtain ⟨_ | ⟨_, _ | ⟨_, _⟩⟩, _ | _⟩ := l <;> rfl

/-- A text in another case has the same outcome, in that case. -/
theorem attempt_recase (h : Recases c) (rules : Rules) (source : String) :
    attempt rules (Text.recase c source) =
      recaseExcept c (Query.recase c 0) (attempt rules source) := by
  rw [attempt, attempt, h.ofText_recase, start_recase]
  cases start (.ofText rules.wordChars source) with
  | error f => rfl
  | ok s =>
    simp only [recaseExcept, EStateM.run, h.query]
    cases query rules source s <;> rfl

/-! ### Variants -/

/-- Names with a set are in lower case. A name without one is kept as it is written. -/
structure QualifiedName.Variant (n n' : QualifiedName) : Prop where
  set : n.set = n'.set
  dotted : n.hasSet = true → n.base = n'.base
  base : Text.fold n.base = Text.fold n'.base

/-- Modifiers that differ in the case of their values only. -/
structure Modifier.Variant (m m' : Modifier) : Prop where
  name : m.name = m'.name
  refinements : m.refinements = m'.refinements
  comparison : m.comparison = m'.comparison
  value : Text.fold m.value = Text.fold m'.value

structure Index.Variant (i i' : Index) : Prop where
  name : i.name.Variant i'.name
  modifiers : List.Forall₂ Modifier.Variant i.modifiers i'.modifiers

/-- Relations of one set and kind. -/
structure Relation.Variant (r r' : Relation) : Prop where
  set : r.set = r'.set
  kind : r.kind = r'.kind
  modifiers : List.Forall₂ Modifier.Variant r.modifiers r'.modifiers

structure Boolean.Variant (b b' : Boolean) : Prop where
  connective : b.connective = b'.connective
  modifiers : List.Forall₂ Modifier.Variant b.modifiers b'.modifiers

structure Clause.Variant (cl cl' : Clause) : Prop where
  index : cl.index.Variant cl'.index
  relation : cl.relation.Variant cl'.relation
  term : Text.fold cl.term.text = Text.fold cl'.term.text

/-- Whether two maps bind the same names to identifiers that differ in case only. -/
def PrefixMap.Variant (m m' : PrefixMap) : Prop :=
  List.Forall₂ (fun p p' => p.1 = p'.1 ∧ Text.fold p.2 = Text.fold p'.2) m.entries m'.entries

/-- What belongs to nodes with one number, at the root of as many levels. -/
structure NodeInfo.Variant (info info' : NodeInfo) : Prop where
  id : info.id = info'.id
  height : info.height = info'.height
  prefixes : info.prefixes.Variant info'.prefixes
  sortKeys : List.Forall₂ Index.Variant info.sortKeys info'.sortKeys

/-- Trees that differ in case only, and only where case is kept. -/
inductive Node.Variant : Node → Node → Prop
  | clause {info info' cl cl'} (same_info : info.Variant info') (same : cl.Variant cl') :
      Variant (.clause info cl) (.clause info' cl')
  | triple {info info' left left' b b' right right'} (same_info : info.Variant info')
      (same_left : Variant left left') (same : b.Variant b') (same_right : Variant right right') :
      Variant (.triple info left b right) (.triple info' left' b' right')

/-- Places below the same node, where trees stand that differ in case only. -/
structure Place.Variant (p p' : Place) : Prop where
  node : p.node.Variant p'.node
  parent : p.parent = p'.parent

/-- Queries that differ in case only. Their nodes correspond one by one, in the order of the text. -/
structure Query.Variant (q q' : Query) : Prop where
  root : q.root.Variant q'.root
  size : q.size = q'.size
  places : List.Forall₂ Place.Variant q.places q'.places

/-! ### Variants have one form in lower case -/

theorem forall₂_of_map_eq {α β : Type} {f : α → β} {R : α → α → Prop} {l l' : List α}
    (same : l.map f = l'.map f) (h : ∀ x y, f x = f y → R x y) : List.Forall₂ R l l' := by
  have pairs : List.Forall₂ (fun x y => f x = f y) l l' := by
    rw [← List.forall₂_map_right_iff (R := fun x y => f x = y),
      ← List.forall₂_map_left_iff (R := Eq), List.forall₂_eq_eq_eq]
    exact same
  exact pairs.imp h

theorem QualifiedName.variant_of_recase {n n' : QualifiedName}
    (same : n.recase Char.toLower = n'.recase Char.toLower) : n.Variant n' := by
  obtain ⟨set, base⟩ := n
  obtain ⟨set', base'⟩ := n'
  have sets : set = set' := by
    have := congrArg QualifiedName.set same
    unfold QualifiedName.recase at this
    split at this <;> split at this <;> exact this
  subst sets
  by_cases none : set = ""
  · simp only [QualifiedName.recase, if_pos none] at same
    exact ⟨rfl, by simp [hasSet, none], congrArg QualifiedName.base same⟩
  · simp only [QualifiedName.recase, if_neg none] at same
    obtain rfl : base = base' := congrArg QualifiedName.base same
    exact ⟨rfl, fun _ => rfl, rfl⟩

theorem Modifier.variant_of_recase (m m' : Modifier)
    (same : m.recase Char.toLower = m'.recase Char.toLower) : m.Variant m' :=
  ⟨(congrArg Modifier.name same :), (congrArg Modifier.refinements same :),
    (congrArg Modifier.comparison same :), (congrArg Modifier.value same :)⟩

theorem Index.variant_of_recase (i i' : Index)
    (same : i.recase Char.toLower = i'.recase Char.toLower) : i.Variant i' :=
  ⟨QualifiedName.variant_of_recase (congrArg Index.name same :),
    forall₂_of_map_eq (congrArg Index.modifiers same :) Modifier.variant_of_recase⟩

theorem Relation.variant_of_recase {r r' : Relation}
    (same : r.recase Char.toLower = r'.recase Char.toLower) : r.Variant r' :=
  ⟨(congrArg Relation.set same :), (congrArg Relation.kind same :),
    forall₂_of_map_eq (congrArg Relation.modifiers same :) Modifier.variant_of_recase⟩

theorem Boolean.variant_of_recase {b b' : Boolean}
    (same : b.recase Char.toLower = b'.recase Char.toLower) : b.Variant b' :=
  ⟨(congrArg Boolean.connective same :),
    forall₂_of_map_eq (congrArg Boolean.modifiers same :) Modifier.variant_of_recase⟩

theorem Clause.variant_of_recase {cl cl' : Clause}
    (same : cl.recase Char.toLower = cl'.recase Char.toLower) : cl.Variant cl' :=
  ⟨Index.variant_of_recase _ _ (congrArg Clause.index same :),
    Relation.variant_of_recase (congrArg Clause.relation same :),
    (congrArg (fun cl : Clause => cl.term.text) same :)⟩

theorem PrefixMap.variant_of_recase {m m' : PrefixMap}
    (same : m.recase Char.toLower = m'.recase Char.toLower) : m.Variant m' :=
  forall₂_of_map_eq (congrArg PrefixMap.entries same :) fun _ _ pair => Prod.mk.inj pair

theorem NodeInfo.variant_of_recase {info info' : NodeInfo}
    (same : info.recase Char.toLower 0 = info'.recase Char.toLower 0) : info.Variant info' :=
  ⟨(congrArg NodeInfo.id same :), (congrArg NodeInfo.height same :),
    PrefixMap.variant_of_recase (congrArg NodeInfo.prefixes same :),
    forall₂_of_map_eq (congrArg NodeInfo.sortKeys same :) Index.variant_of_recase⟩

theorem Node.variant_of_recase {t t' : Node}
    (same : t.recase Char.toLower 0 = t'.recase Char.toLower 0) : t.Variant t' := by
  induction t generalizing t' with
  | clause info cl =>
    cases t' with
    | clause info' cl' =>
      obtain ⟨same_info, same⟩ := Node.clause.inj same
      exact .clause (NodeInfo.variant_of_recase same_info) (Clause.variant_of_recase same)
    | triple => cases same
  | triple info left b right ih ih' =>
    cases t' with
    | clause => cases same
    | triple info' left' b' right' =>
      obtain ⟨same_info, same_left, same, same_right⟩ := Node.triple.inj same
      exact .triple (NodeInfo.variant_of_recase same_info) (ih same_left)
        (Boolean.variant_of_recase same) (ih' same_right)

/-- Nodes that correspond stand below nodes that correspond. -/
theorem Node.Variant.places {t t' : Node} (h : t.Variant t') (parent : Option Nat)
    (around around' : Scope) :
    List.Forall₂ Place.Variant (t.places parent around) (t'.places parent around') := by
  induction h generalizing parent around around' with
  | clause same_info same => exact .cons ⟨.clause same_info same, rfl⟩ .nil
  | triple same_info same_left same same_right ih ih' =>
    rw [Node.places, Node.places, same_info.id]
    exact .cons ⟨.triple same_info same_left same same_right, rfl⟩
      (List.rel_append (ih _ _ _) (ih' _ _ _))

theorem Query.variant_of_recase {q q' : Query}
    (same : q.recase Char.toLower 0 = q'.recase Char.toLower 0) : q.Variant q' := by
  have root : q.root.Variant q'.root := Node.variant_of_recase (congrArg Query.root same :)
  exact ⟨root, (congrArg Query.size same :), root.places none q.scope q'.scope⟩

/-! ### Texts -/

/-- Case does not change what a query is: of two texts that differ in the case of ASCII letters only,
    both are refused with one code and with details that differ in case only, or both are queries
    that differ only where a query keeps the case. -/
theorem parse_of_fold_eq (rules : Rules) (same : Text.fold a = Text.fold b) :
    (∃ d d', parse rules a = .error d ∧ parse rules b = .error d' ∧ d.code = d'.code ∧
        Text.fold d.details = Text.fold d'.details) ∨
      ∃ q q', parse rules a = .ok q ∧ parse rules b = .ok q' ∧ q.Variant q' := by
  have outcomes : recaseExcept Char.toLower (Query.recase Char.toLower 0) (attempt rules a) =
      recaseExcept Char.toLower (Query.recase Char.toLower 0) (attempt rules b) := by
    rw [← attempt_recase recases_toLower, ← attempt_recase recases_toLower]
    exact congrArg (attempt rules) same
  rw [parse_eq_attempt, parse_eq_attempt]
  cases left : attempt rules a with
  | error f =>
    cases right : attempt rules b with
    | error f' =>
      rw [left, right] at outcomes
      have faults : f.recase Char.toLower = f'.recase Char.toLower := Except.error.inj outcomes
      refine .inl ⟨_, _, rfl, rfl, ?_, ?_⟩
      · change f.code = f'.code
        rw [← f.code_recase (c := Char.toLower), faults, Fault.code_recase]
      · change Text.fold f.details = Text.fold f'.details
        rw [← f.fold_details_recase recases_toLower, faults,
          Fault.fold_details_recase recases_toLower]
    | ok q' => rw [left, right] at outcomes; cases outcomes
  | ok q =>
    cases right : attempt rules b with
    | error f' => rw [left, right] at outcomes; cases outcomes
    | ok q' =>
      rw [left, right] at outcomes
      exact .inr ⟨q, q', rfl, rfl, Query.variant_of_recase (Except.ok.inj outcomes)⟩

/-- A query and a refused text, each written in two ways. -/
theorem parse_of_fold_eq_titles :
    (Text.fold "dc.Title=Fish AND Cat" = Text.fold "DC.title=fish and CAT" ∧
      ∃ q q', parse {} "dc.Title=Fish AND Cat" = .ok q ∧
        parse {} "DC.title=fish and CAT" = .ok q' ∧ q.Variant q') ∧
    Text.fold "dc.Title.Main=Fish" = Text.fold "DC.title.main=fish" ∧
      ∃ d d', parse {} "dc.Title.Main=Fish" = .error d ∧ parse {} "DC.title.main=fish" = .error d' ∧
        d.code = d'.code ∧ Text.fold d.details = Text.fold d'.details := by
  have same : Text.fold "dc.Title=Fish AND Cat" = Text.fold "DC.title=fish and CAT" := by decide
  have same' : Text.fold "dc.Title.Main=Fish" = Text.fold "DC.title.main=fish" := by decide
  have accepted : (parse {} "dc.Title=Fish AND Cat").isOk = true := by decide +kernel
  have refused : (parse {} "dc.Title.Main=Fish").isOk = false := by decide +kernel
  refine ⟨⟨same, ?_⟩, same', ?_⟩
  · rcases parse_of_fold_eq {} same with ⟨d, d', read, -⟩ | both
    · rw [read] at accepted
      cases accepted
    · exact both
  · rcases parse_of_fold_eq {} same' with both | ⟨q, q', read, -⟩
    · exact both
    · rw [read] at refused
      cases refused

end ContextualQuery
