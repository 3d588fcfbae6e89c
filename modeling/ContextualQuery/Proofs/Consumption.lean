import ContextualQuery.Proofs.Reading.Account
import ContextualQuery.Query.Session

/-! Each token of a text is taken once.

    Reading looks ahead but never back: each call that it makes drops the current token, and none is
    made at the end of the text. So a text costs a call for each of its tokens if it is a query, and
    not more if it is none, whatever the rules (`Session.takes_each_once`).

        turn or scope                taken, at least
        a declaration                `>`
        a segment of an identifier   `/`
        a modifier                   `/`
        a sort key                   the key
        an operand behind a boolean  the boolean
        the keys of a chain          `sortby`
        a scope inside a subquery    `(` or the group of declarations in front of it

    No turn of a loop and no scope inside a subquery is free (`everyTurnTakes`), so loops end by
    themselves, and nesting does, however large the limit of depth. -/

namespace ContextualQuery

open Reading

variable {rules : Rules} {s : State}

/-! ### Parts of clauses -/

/-- Some token is current where a condition holds of it. -/
theorem exists_current {p : Token → Bool} (h : s.lexemes.current.any p = true) :
    ∃ w, s.lexemes.current = some w := by
  obtain ⟨w, found, -⟩ := (Option.any_eq_true _ _).1 h
  exact ⟨w, found⟩

/-- A name is looked at and not taken. -/
theorem settles_name :
    Settles (fun _ t => t = s ∧ ∃ w, s.lexemes.current = some w) (Script.name rules) (name rules)
      s := by
  refine .current ?_
  cases found : s.lexemes.current with
  | none => exact .refuse
  | some w =>
    cases w with
    | word u => exact .ofExcept fun _ _ => ⟨rfl, _, rfl⟩
    | quoted u => exact .guard (.ofExcept fun _ _ => ⟨rfl, _, rfl⟩)
    | _ => exact .refuse

theorem settles_modifierName :
    Settles (fun _ t => t = s ∧ ∃ w, s.lexemes.current = some w) Script.modifierName modifierName
      s := by
  refine .current ?_
  cases found : s.lexemes.current with
  | none => exact .refuse
  | some w =>
    cases w with
    | word u => exact .ofExcept fun _ _ => ⟨rfl, _, rfl⟩
    | _ => exact .refuse

/-- A value is taken, or nothing at all. -/
theorem settles_modifierValue : Settles (fun _ _ => True) Script.modifierValue modifierValue s := by
  refine .current ?_
  cases found : s.lexemes.current with
  | none => exact .refuse
  | some w =>
    cases w with
    | word u | quoted u => exact .bind (.advance found) fun _ _ _ _ => .pure trivial
    | _ => exact .refuse

/-- The slash is there, so a token is taken whatever stands behind it. The second token is the name.
    -/
theorem spends_modifier {w : Token} (found : s.lexemes.current = some w) :
    Spends Script.modifier modifier s := by
  refine .bind (.advance_lt found) fun _ t lt _ => ?_
  refine .bind settles_modifierName fun name _ ⟨same, v, found⟩ _ => ?_
  subst same
  refine .bind (.advance found) fun _ u _ le => .current ?_
  have fewer : u.left < s.left := by omega
  cases found : u.lexemes.current with
  | none => exact .pure fewer
  | some w =>
    cases w with
    | comparison c =>
      refine .bind (.advance found) fun _ _ _ le₁ => ?_
      exact .bind settles_modifierValue fun _ _ _ le₂ => .pure (by omega)
    | _ => exact .pure fewer

theorem settles_modifiers : Settles (fun _ _ => True) Script.modifiers modifiers s :=
  .many fun _ goesOn =>
    have ⟨_, found⟩ := exists_current goesOn
    spends_modifier found

/-- A relation is taken with its modifiers. -/
theorem settles_relation : Settles (fun _ _ => True) Script.relation relation s := by
  refine .current ?_
  cases found : s.lexemes.current with
  | none => exact .refuse
  | some w =>
    cases w with
    | comparison c =>
      refine .bind (.advance found) fun _ _ _ _ => ?_
      exact .bind settles_modifiers fun _ _ _ _ => .pure trivial
    | word u =>
      refine .bind (.ofExcept (Q := fun _ t => t = s) fun _ _ => rfl) fun _ t same _ => ?_
      subst same
      refine .bind (.advance found) fun _ _ _ _ => ?_
      exact .bind settles_modifiers fun _ _ _ _ => .pure trivial
    | _ => exact .refuse

/-- A boolean takes its word at least. -/
theorem spends_boolean : Spends Script.boolean boolean s := by
  refine .current ?_
  cases found : s.lexemes.current with
  | none => exact .refuse
  | some w =>
    cases w with
    | word u =>
      dsimp only
      cases Connective.ofWord? u with
      | none => exact .refuse
      | some c =>
        refine .bind (.advance_lt found) fun _ _ lt _ => ?_
        exact .bind settles_modifiers fun _ _ _ le => .pure (by omega)
    | _ => exact .refuse

/-- A sort key takes its name at least. -/
theorem spends_sortKey : Spends (Script.sortKey rules) (sortKey rules) s := by
  refine .bind settles_name fun name _ ⟨same, w, found⟩ _ => ?_
  subst same
  refine .bind (.advance_lt found) fun _ _ lt _ => ?_
  exact .bind settles_modifiers fun _ _ _ le => .pure (by omega)

theorem settles_sortKeys : Settles (fun _ _ => True) (Script.sortKeys rules) (sortKeys rules) s := by
  refine .currentIs ?_
  split
  · exact .many fun _ _ => spends_sortKey
  · exact .refuse

/-- No term is read at the end of a text. -/
theorem exists_of_termOf {found : Option Token} {x : Term} (h : termOf rules found = .ok x) :
    ∃ w, found = some w := by
  cases found with
  | none => cases h
  | some w => exact ⟨w, rfl⟩

/-- A term takes its token. -/
theorem spends_term : Spends (Script.term rules) (term rules) s := by
  have checked : Settles (fun _ t => t = s ∧ ∃ w, s.lexemes.current = some w)
      (Script.ofExcept (termOf rules s.lexemes.current))
      (Reading.ofExcept (termOf rules s.lexemes.current)) s :=
    .ofExcept fun x read => ⟨rfl, exists_of_termOf read⟩
  refine .current (.bind checked fun x _ ⟨same, w, found⟩ _ => ?_)
  subst same
  exact .bind (.advance_lt found) fun _ _ lt _ => .pure lt

/-! ### Declarations of short names -/

/-- Where a name is read, the `=` behind it is the second token that is dropped. -/
theorem settles_prefixName : Settles (fun _ _ => True) Script.prefixName prefixName s := by
  refine .following ?_
  split
  next named =>
    refine .current ?_
    cases found : s.lexemes.current with
    | none => exact .refuse
    | some w =>
      cases w with
      | word u =>
        refine .bind (.advance found) fun _ t tokens _ => ?_
        have found : t.lexemes.current = some (.comparison .eq) := by
          have behind : s.lexemes.tokens[1]? = some (.comparison .eq) := beq_iff_eq.1 named
          rw [tokens, List.getElem?_cons_succ] at behind
          rwa [Lexemes.current, List.head?_eq_getElem?]
        exact .bind (.advance found) fun _ _ _ _ => .pure trivial
      | _ => exact .refuse
  next => exact .pure trivial

/-- The slash is taken, with the word behind it or without. -/
theorem spends_identifierSegment {w : Token} (found : s.lexemes.current = some w) :
    Spends Script.identifierSegment identifierSegment s := by
  refine .bind (.advance_lt found) fun _ t lt _ => .current ?_
  cases found : t.lexemes.current with
  | none => exact .pure lt
  | some u =>
    cases u with
    | word v => exact .bind (.advance found) fun _ _ _ le => .pure (by omega)
    | _ => exact .pure lt

/-- The word in front of the slashes is taken, or the quoted text. -/
theorem settles_identifier :
    Settles (fun _ _ => True) (Script.identifier rules) (identifier rules) s := by
  refine .current ?_
  cases found : s.lexemes.current with
  | none => exact .refuse
  | some w =>
    cases w with
    | quoted u => exact .guard (.bind (.advance found) fun _ _ _ _ => .pure trivial)
    | word u =>
      refine .bind (.advance found) fun _ _ _ _ => ?_
      refine .bind (.many fun _ goesOn => ?_) fun _ _ _ _ => .pure trivial
      obtain ⟨_, found⟩ := exists_current goesOn
      exact spends_identifierSegment found
    | _ => exact .refuse

/-- A declaration takes its `>`. -/
theorem spends_declaration {w : Token} (found : s.lexemes.current = some w) (group : PrefixMap) :
    Spends (Script.declaration rules Script.trees group) (declaration rules group) s := by
  refine .bind (.advance_lt found) fun _ _ lt _ => .bind settles_prefixName fun name _ _ le => ?_
  exact .bind settles_identifier fun i _ _ le' => .guard (.pure (by omega))

theorem settles_declarations :
    Settles (fun _ _ => True) (Script.declarations rules Script.trees) (declarations rules) s :=
  .foldWhile (fun group _ goesOn =>
    have ⟨_, found⟩ := exists_current goesOn
    spends_declaration found group) _

/-! ### Trees -/

theorem settles_newClause {cl : Clause} :
    Settles (fun _ _ => True) (Script.newClause cl) (newClause cl) s :=
  .bind .newId fun _ _ _ _ => .pure trivial

theorem settles_newTriple {l r : Node} {b : Boolean} :
    Settles (fun _ _ => True) (Script.newTriple l b r) (newTriple l b r) s :=
  .bind .newId fun _ _ _ _ => .pure trivial

/-- A clause takes what it is made of, in either form. -/
theorem settles_clause (frames : List PrefixMap) :
    Settles (fun _ _ => True) (Script.clause rules Script.trees frames) (clause rules) s := by
  refine .following ?_
  split
  · exact .current (.guard (.bind spends_term fun _ _ _ _ => settles_newClause))
  · split
    · exact .current .refuse
    · refine .bind settles_name fun name _ ⟨same, w, found⟩ _ => ?_
      subst same
      refine .bind (.advance found) fun _ _ _ _ => .bind settles_relation fun _ _ _ _ => ?_
      exact .current (.guard (.bind spends_term fun _ _ _ _ => settles_newClause))

section

variable {operand : Account Node} {operand' : Reading Node}
  (h : ∀ s, Settles (fun _ _ => True) operand operand' s)
include h

/-- The boolean is taken, so a turn of the loop over operands takes a token. -/
theorem spends_join (left : Node) :
    Spends (Script.join rules Script.trees operand left) (join rules operand' left) s :=
  .bind spends_boolean fun _ t lt _ => .bind (h t) fun _ _ _ le =>
    .bind settles_newTriple fun _ u _ le' =>
      .bind (Q := fun _ v => v.left = u.left) (.pure rfl) fun _ _ same _ => .guard (.pure (by omega))

theorem settles_chain (s : State) :
    Settles (fun _ _ => True) (Script.chain rules Script.trees operand) (chain rules operand') s := by
  refine .bind (h s) fun first _ _ _ => ?_
  refine .bind (.foldWhile (fun left _ _ => spends_join h left) first) fun whole _ _ _ => ?_
  refine .currentIs ?_
  split
  next sorted =>
    obtain ⟨_, found⟩ := exists_current sorted
    exact .bind (.advance found) fun _ _ _ _ => .bind settles_sortKeys fun _ _ _ _ => .pure trivial
  next => exact .pure trivial

end

/-- Behind parentheses and declarations `enter` is left to settle its own account. -/
theorem settles_subquery (frames : List PrefixMap) {enter : PrefixMap → Account Node}
    {enter' : PrefixMap → Reading Node}
    (h : ∀ group s, Settles (fun _ _ => True) (enter group) (enter' group) s) (s : State) :
    Settles (fun _ _ => True) (Script.subquery rules Script.trees frames enter)
      (subquery rules enter') s := by
  refine .currentIs ?_
  split
  next opened =>
    obtain ⟨_, found⟩ := exists_current opened
    refine .bind (.advance found) fun _ _ _ _ => .bind settles_declarations fun group t _ _ => ?_
    refine .bind (h group t) fun node u _ _ => .currentIs ?_
    split
    next closed =>
      obtain ⟨_, found⟩ := exists_current closed
      exact .bind (.advance found) fun _ _ _ _ => .pure trivial
    next => exact .current .refuse_bind
  next =>
    refine .bind settles_declarations fun group t _ _ => ?_
    rw [Script.declared_trees, Script.declared_trees]
    split
    · exact settles_clause frames
    · exact h group t

/-- By induction on the scopes that may still be opened. -/
theorem settles_inScope (depth : Nat) : ∀ (frames : List PrefixMap) (group : PrefixMap) (s : State),
    Settles (fun _ _ => True) (Script.inScope rules Script.trees depth frames group)
      (inScope rules depth frames group) s := by
  induction depth with
  | zero => exact fun _ _ _ => .refuse
  | succ depth ih =>
    intro frames group s
    have inner (t : State) : Settles (fun _ _ => True)
        (do
          let node ← Script.chain rules Script.trees (Script.subquery rules Script.trees
            (group :: frames) (Script.inScope rules Script.trees depth (group :: frames)))
          return node.declare group)
        (do
          let node ← chain rules (subquery rules (inScope rules depth (group :: frames)))
          return node.declare group) t :=
      .bind (settles_chain (settles_subquery _ (ih (group :: frames))) t) fun _ _ _ _ => .pure trivial
    -- A name that clashes refuses both, and otherwise both go on as `inner`.
    refine .bind (Q := fun _ _ => True) (.pure trivial) fun names t _ _ => ?_
    rw [Script.declared_trees, Script.declared_trees]
    split
    · generalize List.find? _ _ = found
      cases found with
      | some name => exact .refuse_bind
      | none => exact inner t
    · exact inner t

/-- Nothing is left behind a tree. -/
theorem settles_tree :
    Settles (fun _ t => t.lexemes.tokens = []) (Script.tree rules) (tree rules) s := by
  refine .bind settles_declarations fun group t _ _ => ?_
  refine .bind (settles_inScope rules.maxDepth [] group t) fun root u _ _ => .current ?_
  cases found : u.lexemes.current with
  | none => exact .pure (List.head?_eq_none_iff.1 found)
  | some w => exact .refuse_bind

/-- Behind a query no token is left. -/
theorem settles_query (source : String) :
    Settles (fun _ t => t.lexemes.tokens = []) (Script.query rules source) (query rules source)
      s := by
  refine .bind settles_tree fun root t ended _ => .bind .size fun count u same _ => .pure ?_
  rw [same, ended]

/-! ### Turns and scopes -/

namespace Reading

/-- Whether a reading takes a token at least where the current one is as asked. -/
def Costs {α : Type} (p : Token → Bool) (m : Reading α) : Prop :=
  ∀ s a t, s.lexemes.current.any p = true → m s = .ok a t → t.left < s.left

/-- Whatever has an account in which a token is taken takes one. -/
theorem costs_of_spends {α : Type} {p : Token → Bool} {m : Reading α} {x : Account α}
    (h : ∀ s w, s.lexemes.current = some w → Spends x m s) : Costs p m := by
  intro s a t holds run
  obtain ⟨w, found⟩ := exists_current holds
  obtain ⟨-, -, -, post⟩ := h s w found
  exact post a t run

/-- A scope inside a subquery is entered only where a token less is left: it makes no difference
    what entering one would do elsewhere. -/
theorem subquery_congr {enter enter' : PrefixMap → Reading Node} {s : State}
    (same : ∀ group t, t.left < s.left → enter group t = enter' group t) :
    subquery rules enter s = subquery rules enter' s := by
  rw [subquery, subquery, Script.subquery, Script.subquery, currentIs_bind, currentIs_bind]
  split
  next opened =>
    refine bind_congr_right fun _ t dropped => bind_congr_right fun group u declared => ?_
    have fewer := left_advance dropped
    have some_left := left_pos opened
    have le := ((ends_declarations t).of_ok declared).1
    exact bind_congr_left (same group u (by omega))
  next =>
    refine bind_congr_right fun group u declared => ?_
    have fewer := ((ends_declarations s).of_ok declared).2
    split
    next => rfl
    next some_name => exact same group u (fewer (by simpa using some_name))

/-- Whether each turn of a loop that comes to its end takes a token at least, and each scope that is
    entered inside a subquery is entered behind one. -/
structure EveryTurnTakes (rules : Rules) : Prop where
  declaration : ∀ group, Costs (· == .comparison .gt) (declaration rules group)
  segment : Costs (· == .slash) identifierSegment
  modifier : Costs (· == .slash) modifier
  key : Costs Token.isText (sortKey rules)
  operand : ∀ depth frames left,
    Costs Token.isBoolean (join rules (subquery rules (inScope rules depth frames)) left)
  sorting : Costs (Token.isWord sortWord) (do advance; sortKeys rules)
  scope : ∀ {enter enter' : PrefixMap → Reading Node} {s : State},
    (∀ group t, t.left < s.left → enter group t = enter' group t) →
      subquery rules enter s = subquery rules enter' s

/-- One fact for each loop of the reading, and one for scopes. -/
theorem everyTurnTakes (rules : Rules) : EveryTurnTakes rules where
  declaration group := costs_of_spends fun _ _ found => spends_declaration found group
  segment := costs_of_spends fun _ _ => spends_identifierSegment
  modifier := costs_of_spends fun _ _ => spends_modifier
  key := costs_of_spends fun _ _ _ => spends_sortKey
  operand depth frames left := costs_of_spends fun _ _ _ =>
    spends_join (settles_subquery [] (settles_inScope depth frames)) left
  sorting := costs_of_spends fun _ _ found => .bind (.advance_lt found) fun _ _ lt _ =>
    settles_sortKeys.mono fun _ _ _ le => by omega
  scope := subquery_congr

end Reading

/-! ### The first reading -/

namespace Session

/-- What is read first from a text whose words hold the given punctuation. -/
def first (rules : Rules) (punctuation source : String) : Except Diagnostic Query := do
  let session ← start punctuation source
  (session.read rules).1

/-- What the end of a reading says of the text. -/
def outcome (s : Session) : Ending Query → Except Diagnostic Query
  | .ok query _ => .ok query
  | .error fault _ => .error (fault.diagnostic s.source)

/-- A reading says what its ending says. -/
theorem read_fst (rules : Rules) (s : Session) :
    (s.read rules).1 = s.outcome (query rules s.source s.state) := by
  rw [read, EStateM.run]
  cases query rules s.source s.state <;> rfl

/-- Accounts of the first reading from a text. No call is made where a quote that is never closed is
    met in starting. -/
inductive FirstAccount (rules : Rules) (punctuation source : String) :
    List Call → Except Diagnostic Query → Prop
  | unstarted {d} (started : start punctuation source = .error d) :
      FirstAccount rules punctuation source [] (.error d)
  | read {s calls ending} (started : start punctuation source = .ok s)
      (run : (Script.query rules s.source : Account Query) s.state calls ending) :
      FirstAccount rules punctuation source calls (s.outcome ending)

/-- Whether calls take the tokens of a text in their order, each once, and all of them for a query.
    A call that is refused is the last one and takes none. -/
structure TakesInOrder (source : String) (tokens : List Token) (calls : List Call)
    (outcome : Except Diagnostic Query) : Prop where
  few : calls.length ≤ tokens.length
  order : ∃ ts us, tokens = ts ++ us ∧
    (calls = ts.map .dropped ∨ ∃ fault, calls = ts.map .dropped ++ [.refused fault] ∧
      outcome = .error (fault.diagnostic source))
  whole : ∀ q, outcome = .ok q → calls = tokens.map .dropped

variable {rules : Rules} {punctuation source : String} {s : Session} {calls : List Call}

/-- The calls of an ending are those of its outcome. -/
theorem takesInOrder_outcome {ending : Ending Query} (takes : Consumes s.state calls ending)
    (none_left : ∀ q t, ending = .ok q t → t.lexemes.tokens = []) :
    TakesInOrder s.source s.state.lexemes.tokens calls (s.outcome ending) := by
  cases takes with
  | @read ts q t split =>
    rw [none_left q t rfl, List.append_nil] at split
    rw [split]
    exact ⟨by simp, ⟨ts, [], by simp, .inl rfl⟩, fun _ _ => rfl⟩
  | @refused ts f t split => exact ⟨by simp [split], ⟨ts, _, split, .inl rfl⟩, nofun⟩
  | @cut ts f t split more =>
    have some_left := List.length_pos_iff.2 more
    refine ⟨?_, ⟨ts, _, split, .inr ⟨f, rfl, rfl⟩⟩, nofun⟩
    rw [split, List.length_append, List.length_append, List.length_map]
    exact Nat.add_le_add_left some_left _

/-- A text that cannot be started with costs no call. -/
theorem firstAccount_of_error {d : Diagnostic} (started : start punctuation source = .error d)
    (outcome : Except Diagnostic Query) :
    FirstAccount rules punctuation source calls outcome ↔ calls = [] ∧ outcome = .error d := by
  constructor
  · rintro (started' | ⟨started', -⟩) <;> cases started.symm.trans started'
    exact ⟨rfl, rfl⟩
  · rintro ⟨rfl, rfl⟩
    exact .unstarted started

/-- Once the lexer has started, the first reading is the reading of its tokens. -/
theorem firstAccount_of_ok (started : start punctuation source = .ok s)
    (outcome : Except Diagnostic Query) :
    FirstAccount rules punctuation source calls outcome ↔ ∃ ending,
      (Script.query rules s.source : Account Query) s.state calls ending ∧
        outcome = s.outcome ending := by
  constructor
  · rintro (started' | ⟨started', run⟩) <;> cases started.symm.trans started'
    exact ⟨_, run, rfl⟩
  · rintro ⟨ending, run, rfl⟩
    exact .read started run

/-- Each token of a text is taken once. The script that accounts are kept of is what reads queries;
    a text has just one account of its first reading, and that one ends as the first reading does;
    its calls take the tokens in order, at most one call a token, and exactly one where a query is
    read; and no turn of a loop and no scope inside a subquery is free. -/
theorem takes_each_once (rules : Rules) (punctuation source : String) :
    (Script.query rules source : Reading Query) = query rules source ∧
      (∃ calls, (∀ made outcome, FirstAccount rules punctuation source made outcome ↔
          made = calls ∧ outcome = first rules punctuation source) ∧
        TakesInOrder source (Lexemes.ofText punctuation source).tokens calls
          (first rules punctuation source)) ∧
      EveryTurnTakes rules := by
  refine ⟨rfl, ?_, everyTurnTakes rules⟩
  unfold first
  cases started : start punctuation source with
  | error d =>
    exact ⟨[], fun _ => firstAccount_of_error started, by simp, ⟨[], _, rfl, .inl rfl⟩, nofun⟩
  | ok s =>
    obtain ⟨calls, only, takes, none_left⟩ :
        Settles (fun _ t => t.lexemes.tokens = []) (Script.query rules s.source)
          (query rules s.source) s.state := settles_query s.source
    refine ⟨calls, fun made outcome => ?_, ?_⟩
    · change _ ↔ made = calls ∧ outcome = (s.read rules).1
      rw [firstAccount_of_ok started, read_fst]
      constructor
      · rintro ⟨ending, run, rfl⟩
        obtain ⟨rfl, rfl⟩ := (only made ending).1 run
        exact ⟨rfl, rfl⟩
      · rintro ⟨rfl, rfl⟩
        exact ⟨_, (only _ _).2 ⟨rfl, rfl⟩, rfl⟩
    · have whole := takesInOrder_outcome takes none_left
      rw [← read_fst] at whole
      -- What is left in starting is all of the text.
      rwa [eq_of_start started] at whole ⊢

end Session

end ContextualQuery
