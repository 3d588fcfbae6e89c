import ContextualQuery.Proofs.Reading.Phrase

/-! What a query is read as does not depend on what closes it.

    The end of the text and a closing parenthesis look alike to everything in front of them, and of
    the rules only those for names, terms and groups of declarations say what tokens spell
    (`Spells.change`). So tokens that spell a query spell the same query between parentheses, and
    under any other limit of depth (`Spells.closing`). -/

namespace ContextualQuery

open Reading Unicode

/-- What may be in sight behind a whole query. -/
def Closing (next : Option Token) : Prop := next = none ∨ next = some .closeParen

/-- Whether two sights are the same or both close a query. -/
def Alike (a b : Option Token) : Prop := a = b ∨ Closing a ∧ Closing b

/-- Rules with another limit of depth. -/
abbrev Rules.withDepth (rules : Rules) (maxDepth : Nat) : Rules := { rules with maxDepth }

/-- Whether rules agree on which names and which terms are allowed. -/
structure Rules.Agree (rules rules' : Rules) : Prop where
  emptyTerm : rules.rejectEmptyTerm = rules'.rejectEmptyTerm
  quotedName : rules.rejectQuotedName = rules'.rejectQuotedName

variable {rules rules' : Rules} {m : Nat} {u v : List Token} {a b : Option Token}

namespace Alike

theorem refl (a : Option Token) : Alike a a := .inl rfl

theorem ahead (h : Alike a b) (v : List Token) :
    Alike (ahead v a) (ahead v b) := by
  cases v with
  | nil => exact h
  | cons t v => exact refl _

/-- A question that a closing parenthesis and the end both deny has one answer. -/
theorem any_eq (h : Alike a b) {p : Token → Bool} (refused : p .closeParen = false) :
    a.any p = b.any p := by
  rcases h with rfl | ⟨rfl | rfl, rfl | rfl⟩ <;> simp [refused]

theorem eq_some_iff (h : Alike a b) {t : Token} (other : t ≠ .closeParen) :
    a = some t ↔ b = some t := by
  rcases h with rfl | ⟨rfl | rfl, rfl | rfl⟩ <;> simp [other.symm]

/-- Both end a term. -/
theorem endsTerm_eq (h : Alike a b) : endsTerm a = endsTerm b := by
  rcases h with rfl | ⟨rfl | rfl, rfl | rfl⟩ <;> rfl

end Alike

/-! ### Parts -/

/-- A spelling that does not depend on what closes it. -/
def Spelling.Steady {α : Type} (S T : Spelling α) : Prop :=
  ∀ u a b x, Alike a b → S u a x → T u b x

/-- No item starts with a closing parenthesis, so a sequence ends in front of one as it ends at the
    end. -/
theorem steady_sequence {α : Type} {p : Token → Bool} {S T : Spelling α}
    (refused : p .closeParen = false) (h : S.Steady T) :
    Spelling.Steady (Sequence p S) (Sequence p T) := by
  intro u a b as alike spelled
  induction spelled with
  | nil ends => exact .nil (by rwa [← alike.any_eq refused])
  | @cons u v a x xs first _ ih => exact .cons (h _ _ _ _ (alike.ahead v) first) (ih alike)

/-- A comparison behind a name belongs to the modifier; neither the end nor `)` is one. -/
theorem steady_modifier : Spelling.Steady ModifierSpelling ModifierSpelling := by
  intro u a b x alike spelled
  cases spelled with
  | plain split ends => exact .plain split (by rwa [← alike.any_eq rfl])
  | valued split text => exact .valued split text

theorem steady_modifiers : Spelling.Steady ModifiersSpelling ModifiersSpelling :=
  steady_sequence rfl steady_modifier

/-- Rules that agree allow the same quoted names. -/
theorem Rules.Agree.name (agree : rules.Agree rules') {t : Token} {n : QualifiedName}
    (h : NameSpelling rules t n) : NameSpelling rules' t n := by
  cases h with
  | word split => exact .word split
  | quoted allowed split => exact .quoted (agree.quotedName ▸ allowed) split

theorem Rules.Agree.keys (agree : rules.Agree rules') :
    Spelling.Steady (KeysSpelling rules) (KeysSpelling rules') := by
  refine steady_sequence rfl fun u a b x alike spelled => ?_
  obtain ⟨named, refined⟩ := spelled
  exact .key (agree.name named) (steady_modifiers _ _ _ _ alike refined)

theorem steady_boolean : Spelling.Steady BooleanSpelling BooleanSpelling := by
  intro u a b x alike spelled
  obtain ⟨joins, refined⟩ := spelled
  exact .word joins (steady_modifiers _ _ _ _ alike refined)

theorem steady_segment : Spelling.Steady SegmentSpelling SegmentSpelling := by
  intro u a b x alike spelled
  cases spelled with
  | slash ends => exact .slash fun s h => ends s ((alike.eq_some_iff (by simp)).2 h)
  | word => exact .word

theorem Rules.Agree.identifier (agree : rules.Agree rules') :
    Spelling.Steady (IdentifierSpelling rules) (IdentifierSpelling rules') := by
  intro u a b x alike spelled
  cases spelled with
  | quoted allowed => exact .quoted (agree.quotedName ▸ allowed)
  | path path => exact .path (steady_sequence rfl steady_segment _ _ _ _ alike path)

/-- A short name is read if `=` is second, which neither the end nor `)` is. -/
theorem Rules.Agree.declaration (agree : rules.Agree rules') :
    Spelling.Steady (DeclarationSpelling rules) (DeclarationSpelling rules') := by
  intro u a b x alike spelled
  cases spelled with
  | named bound => exact .named (agree.identifier _ _ _ _ alike bound)
  | unnamed bound nameless =>
    refine .unnamed (agree.identifier _ _ _ _ alike bound) fun h => nameless ?_
    exact ((alike.ahead _).eq_some_iff (by simp)).2 h

theorem Rules.Agree.group (agree : rules.Agree rules') {group : Declarations} (alike : Alike a b)
    (h : GroupSpelling rules u a group) (addable : Addable rules' .empty group) :
    GroupSpelling rules' u b group := by
  obtain ⟨written, -⟩ := h
  exact .group (steady_sequence rfl agree.declaration _ _ _ _ alike written) addable

/-- Rules that agree judge terms alike. -/
theorem Rules.Agree.termOf_eq (agree : rules.Agree rules') (w : Option Token) :
    termOf rules w = termOf rules' w := by
  have check (raw inner : String) : checkTerm rules raw inner = checkTerm rules' raw inner := by
    rw [checkTerm, checkTerm, agree.emptyTerm]
  match w with
  | some (.word _) | some (.quoted _) | some (.symbol _) => exact check _ _
  | none | some .openParen | some .closeParen | some .slash | some (.comparison _) => rfl

/-- A term stands alone in front of both. -/
theorem Rules.Agree.clause (agree : rules.Agree rules') :
    Spelling.Steady (ClauseSpelling rules) (ClauseSpelling rules') := by
  intro u a b x alike spelled
  cases spelled with
  | full named goesOn related searched =>
    exact .full (agree.name named) goesOn related (agree.termOf_eq _ ▸ searched)
  | alone ends searched =>
    exact .alone (by rwa [← alike.endsTerm_eq]) (agree.termOf_eq _ ▸ searched)

/-! ### Phrases -/

/-- Whether all groups of a phrase are as asked. -/
def Phrase.Groups (P : Declarations → Prop) : Phrase → Prop
  | .clause _ => True
  | .join left _ right => left.Groups P ∧ right.Groups P
  | .sort body _ => body.Groups P
  | .scope group body => P group ∧ body.Groups P

/-- Neither what closes some tokens nor a change of the rules changes the phrase they spell, if its
    groups of declarations are allowed. -/
theorem Spells.change (agree : rules.Agree rules') {part : Part} {p : Phrase}
    (h : Spells rules part u a p) : p.Groups (Addable rules' .empty) →
      (∀ left, part = .links left → left.Groups (Addable rules' .empty)) ∧
        ∀ b, Alike a b → Spells rules' part u b p := by
  induction h with
  | query declared _ ih =>
    rintro ⟨group, body⟩
    exact ⟨by simp, fun b alike =>
      .query (agree.group (alike.ahead _) declared group) ((ih body).2 b alike)⟩
  -- What is on the left of the links has a part in their phrase, so its groups are among those
  -- allowed.
  | chain _ _ unsorted ih ih' =>
    intro whole
    obtain ⟨left, links⟩ := ih' whole
    exact ⟨by simp, fun b alike => .chain ((ih (left _ rfl)).2 _ (alike.ahead _)) (links b alike)
      (by rwa [← alike.any_eq rfl])⟩
  | sorted _ _ sortby some_key sorting ih ih' =>
    intro whole
    obtain ⟨left, links⟩ := ih' whole
    exact ⟨by simp, fun b alike => .sorted ((ih (left _ rfl)).2 _ (.refl _)) (links _ (.refl _))
      sortby some_key (agree.keys _ _ _ _ alike sorting)⟩
  | done ends =>
    exact fun whole => ⟨fun left h => by cases h; exact whole, fun b alike =>
      .done (by rwa [← alike.any_eq rfl])⟩
  | link joined _ _ ih ih' =>
    intro whole
    obtain ⟨left, links⟩ := ih' whole
    obtain ⟨left, right⟩ := left _ rfl
    exact ⟨fun left' h => by cases h; exact left, fun b alike =>
      .link (steady_boolean _ _ _ _ (alike.ahead _) joined) ((ih right).2 _ (alike.ahead _))
        (links b alike)⟩
  | paren _ ih => exact fun whole => ⟨by simp, fun b _ => .paren ((ih whole).2 _ (.refl _))⟩
  | enter declared some_name _ ih =>
    rintro ⟨group, body⟩
    exact ⟨by simp, fun b alike =>
      .enter (agree.group (alike.ahead _) declared group) some_name ((ih body).2 b alike)⟩
  | clause spelled =>
    exact fun _ => ⟨by simp, fun b alike => .clause (agree.clause _ _ _ _ alike spelled)⟩

/-- The groups of a phrase are allowed by the rules that it is spelled by. -/
theorem addable_hereditary :
    Hereditary rules (fun _ => True) (Phrase.Groups (Addable rules .empty)) where
  clause _ _ := trivial
  join _ _ first second := ⟨first, second⟩
  sort _ _ below := below
  scope _ declared below := by
    obtain ⟨-, addable⟩ := declared
    exact ⟨addable, below⟩

/-- By induction on the phrase. -/
theorem Phrase.Groups.mono {P Q : Declarations → Prop} {p : Phrase} (h : p.Groups P)
    (imp : ∀ group, P group → Q group) : p.Groups Q := by
  induction p with
  | clause c => trivial
  | join left b right ih ih' => exact ⟨ih h.1, ih' h.2⟩
  | sort body keys ih => exact ih h
  | scope group body ih => exact ⟨imp _ h.1, ih h.2⟩

/-- The limit of depth is no matter of single groups. -/
theorem Addable.withDepth {group : PrefixMap} {ds : Declarations} (h : Addable rules group ds) :
    Addable (rules.withDepth m) group ds := by
  induction ds generalizing group with
  | nil => trivial
  | cons d ds ih => exact ⟨h.1, ih h.2⟩

/-- Neither what closes a query nor the limit of depth changes what it is spelled with. -/
theorem Spells.closing {p : Phrase} (h : Spells rules .query u a p) (b : Option Token)
    (alike : Alike a b) : Spells (rules.withDepth m) .query u b p := by
  have agree : rules.Agree (rules.withDepth m) := ⟨rfl, rfl⟩
  have allowed := addable_hereditary.holds h (by simp) (by simp)
  exact (h.change agree (allowed.mono fun _ => Addable.withDepth)).2 b alike

/-- A phrase fits in wherever more groups and levels are allowed; around it there may be groups
    without declarations. -/
theorem Phrase.Fits.withDepth {p : Phrase} (more : rules.maxDepth ≤ m) : ∀ {depth depth' : Nat}
    {groups groups' : List Declarations}, p.Fits rules depth groups → depth ≤ depth' →
      (∀ g ∈ groups', g ∈ groups ∨ g = []) → p.Fits (rules.withDepth m) depth' groups' := by
  induction p with
  | clause c => exact fun _ _ _ => trivial
  | join left b right ih ih' =>
    rintro depth depth' groups groups' ⟨fits, fits', low⟩ deeper known
    exact ⟨ih fits deeper known, ih' fits' deeper known, Nat.le_trans low more⟩
  | sort body keys ih => exact ih
  | scope group body ih =>
    intro depth depth' groups groups' fits deeper known
    cases depth with
    | zero => exact fits.elim
    | succ depth =>
      obtain ⟨unclaimed, fits⟩ := fits
      obtain ⟨depth', rfl⟩ : ∃ d, depth' = d + 1 := ⟨depth' - 1, by omega⟩
      refine ⟨fun strict name declared outer hmem hname => ?_, ih fits (by omega) fun g hg => ?_⟩
      · rcases known outer hmem with before | rfl
        · exact unclaimed strict name declared outer before hname
        · cases hname
      · rcases List.mem_cons.1 hg with rfl | hg
        · exact .inl List.mem_cons_self
        · exact (known g hg).imp_left (List.mem_cons_of_mem _)

end ContextualQuery
