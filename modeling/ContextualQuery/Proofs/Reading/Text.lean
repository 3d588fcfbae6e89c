import ContextualQuery.Proofs.Reading.Conduct
import ContextualQuery.Proofs.Reading.Tree

/-! Reading a text.

    Two tokens are always in sight in front of an unclosed quote, and whoever takes one of the last
    two meets it. So no reading gets past the quote (`staysUnclosed`), while a tree is read to the end
    of the text: a text is a query exactly if its tokens spell a phrase within the rules and no quote
    stays open (`parse_eq_ok`). -/

namespace ContextualQuery

namespace Reading

variable {rules : Rules}

/-! ### Unclosed quotes -/

/-- An unclosed quote behind tokens that are still to be read. -/
def Unclosed (s : State) : Prop :=
  s.lexemes.unterminated.isSome = true ∧ s.lexemes.tokens ≠ []

/-- A reading that starts in front of an unclosed quote and succeeds ends in front of it. -/
theorem staysUnclosed : Conduct rules (fun s t => Unclosed s → Unclosed t) fun _ => True where
  refl _ ahead := ahead
  trans first second ahead := second (first ahead)
  dropped := by
    rintro ⟨⟨ts, quote⟩, n⟩ t run ⟨open_, -⟩
    obtain ⟨text, rfl⟩ := Option.isSome_iff_exists.1 open_
    match ts, run with
    | _ :: second :: third :: rest, run =>
      obtain ⟨-, rfl⟩ := pure_eq_ok.1 run
      exact ⟨rfl, by simp⟩
    | [], run | [_], run | [_, _], run =>
      change EStateM.Result.error _ _ = _ at run
      simp at run
  numbered _ ahead := ahead
  refused _ := trivial

/-- No tree is read in front of an unclosed quote. -/
theorem tree_unclosed {s t : State} {node : Node} (ahead : Unclosed s) :
    tree rules s ≠ .ok node t := by
  intro run
  obtain ⟨group, r, first, run⟩ := bind_eq_ok.1 run
  obtain ⟨root, r', second, run⟩ := bind_eq_ok.1 run
  have still : Unclosed r' :=
    (staysUnclosed.inScope trivial _ _ group r).of_ok second
      ((staysUnclosed.declarations s).of_ok first ahead)
  obtain ⟨token, more⟩ : ∃ token, r'.lexemes.current = some token := by
    obtain ⟨token, rest, tokens⟩ := List.exists_cons_of_ne_nil still.2
    exact ⟨token, by simp [Lexemes.current, tokens]⟩
  rw [current_bind, more] at run
  simp [map_eq_ok, refuse_eq_ok] at run

/-- No tree is read where no token is left. -/
theorem tree_nothing {s t : State} {node : Node} (nothing : s.lexemes.tokens = []) :
    tree rules s ≠ .ok node t := by
  obtain ⟨⟨ts, quote⟩, n⟩ := s
  obtain rfl : ts = [] := nothing
  intro run
  obtain ⟨_, _, duplicates, _, _, depth⟩ := rules
  cases depth <;> cases duplicates <;> cases run

/-- Whatever was created in reading a tree belongs to it. -/
theorem created_of_tree {s t : State} {node : Node} (run : tree rules s = .ok node t) :
    ∃ p : Phrase, node = p.build s.created ∧ t.created = s.created + p.size := by
  obtain ⟨⟨ts, quote⟩, n⟩ := s
  cases quote with
  | none =>
    obtain ⟨p, -, -, rfl, rfl⟩ := tree_eq_ok.1 run
    exact ⟨p, rfl, rfl⟩
  | some text =>
    by_cases nothing : ts = []
    · exact absurd run (tree_nothing nothing)
    · exact absurd run (tree_unclosed ⟨rfl, nothing⟩)

end Reading

/-! ### Texts -/

variable {rules : Rules} {source : String}

theorem observe_eq_ok_iff_run {found : Query × List Note} :
    observe rules source = .ok found ↔
      ∃ session s, Session.start rules.wordChars source = .ok session ∧
        Reading.observedQuery rules source session.state = .ok found s := by
  unfold observe
  cases Session.start rules.wordChars source with
  | error d => simp [bind, Except.bind]
  | ok session =>
    simp only [bind, Except.bind, EStateM.run]
    cases run : Reading.observedQuery rules source session.state <;> simp [run]

theorem observedQuery_eq_ok {s t : Reading.State} {found : Query × List Note} :
    Reading.observedQuery rules source s = .ok found t ↔
      ∃ x r, Reading.observedTree rules s = .ok x r ∧
        (⟨source, x.node, r.created, rules.defaultPrefixes⟩, x.notes) = found ∧
        { r with created := 0 } = t := by
  have numbered (r : Reading.State) (count : Nat) (u : Reading.State) :
      Reading.size r = .ok count u ↔ r.created = count ∧ { r with created := 0 } = u := by
    change EStateM.Result.ok r.created _ = .ok count u ↔ _
    rw [EStateM.Result.ok.injEq]
  simp only [Reading.observedQuery, Reading.bind_eq_ok, Reading.pure_eq_ok, numbered]
  constructor
  · rintro ⟨x, r, run, size, u, ⟨rfl, rfl⟩, rfl, rfl⟩
    exact ⟨x, r, run, rfl, rfl⟩
  · rintro ⟨x, r, run, rfl, rfl⟩
    exact ⟨x, r, run, _, _, ⟨rfl, rfl⟩, rfl, rfl⟩

theorem start_closed {ts : List Token} (h : Lexemes.ofText rules.wordChars source = { tokens := ts }) :
    Session.start rules.wordChars source = .ok ⟨source, Reading.closed ts 0⟩ := by
  rw [Session.start, h]
  rcases ts with _ | ⟨_, _ | ⟨_, _⟩⟩ <;> rfl

theorem start_unclosed {text : String} {session : Session}
    (h : (Lexemes.ofText rules.wordChars source).unterminated = some text)
    (started : Session.start rules.wordChars source = .ok session) :
    Reading.Unclosed session.state := by
  rw [Session.start] at started
  generalize Lexemes.ofText rules.wordChars source = l at h started
  obtain ⟨_ | ⟨_, _ | ⟨_, _⟩⟩, quote⟩ := l
  · cases h
    cases started
  · cases h
    cases started
  · cases h
    cases started
    exact ⟨rfl, by simp⟩

/-- A text is observed to be a query exactly if its tokens spell a phrase within the rules and no
    quote stays open. -/
theorem observe_eq_ok {q : Query} {notes : List Note} :
    observe rules source = .ok (q, notes) ↔ ∃ ts p,
      Lexemes.ofText rules.wordChars source = { tokens := ts } ∧
      Spells rules .query ts none p ∧ p.Fits rules rules.maxDepth [] ∧
      q = ⟨source, p.build 0, p.size, rules.defaultPrefixes⟩ ∧ notes = p.notes [] 0 := by
  rw [observe_eq_ok_iff_run]
  simp only [observedQuery_eq_ok]
  constructor
  · rintro ⟨session, s, started, x, r, run, found, -⟩
    cases quote : (Lexemes.ofText rules.wordChars source).unterminated with
    | some text =>
      have read : Reading.tree rules session.state = .ok x.node r := by
        rw [← Reading.node_observedTree, Reading.map_eq_ok]
        exact ⟨x, run, rfl⟩
      exact absurd read (Reading.tree_unclosed (start_unclosed quote started))
    | none =>
      obtain ⟨ts, lexed⟩ : ∃ ts, Lexemes.ofText rules.wordChars source = { tokens := ts } :=
        ⟨_, by rw [← quote]⟩
      rw [start_closed lexed] at started
      obtain rfl := Except.ok.inj started
      obtain ⟨p, spelled, fits, rfl, rfl⟩ := Reading.observedTree_eq_ok.1 run
      obtain ⟨rfl, rfl⟩ := Prod.mk.inj found
      exact ⟨ts, p, lexed, spelled, fits, by simp, rfl⟩
  · rintro ⟨ts, p, lexed, spelled, fits, rfl, rfl⟩
    refine ⟨_, _, start_closed lexed, _, _,
      Reading.observedTree_eq_ok.2 ⟨p, spelled, fits, rfl, rfl⟩, ?_, rfl⟩
    simp

theorem parse_eq_ok_iff_observe {q : Query} :
    parse rules source = .ok q ↔ ∃ notes, observe rules source = .ok (q, notes) := by
  rw [← map_observe]
  cases observe rules source with
  | error d => simp [Functor.map, Except.map]
  | ok found =>
    obtain ⟨q', notes⟩ := found
    simp [Functor.map, Except.map]

/-- A text is a query exactly if its tokens spell a phrase within the rules and no quote stays
    open. -/
theorem parse_eq_ok {q : Query} :
    parse rules source = .ok q ↔ ∃ ts p,
      Lexemes.ofText rules.wordChars source = { tokens := ts } ∧
      Spells rules .query ts none p ∧ p.Fits rules rules.maxDepth [] ∧
      q = ⟨source, p.build 0, p.size, rules.defaultPrefixes⟩ := by
  simp only [parse_eq_ok_iff_observe, observe_eq_ok]
  constructor
  · rintro ⟨notes, ts, p, lexed, spelled, fits, rfl, -⟩
    exact ⟨ts, p, lexed, spelled, fits, rfl⟩
  · rintro ⟨ts, p, lexed, spelled, fits, rfl⟩
    exact ⟨_, ts, p, lexed, spelled, fits, rfl, rfl⟩

theorem exists_eq_ok {ε α : Type} {x : Except ε α} (h : x.isOk = true) : ∃ a, x = .ok a := by
  cases x with
  | ok a => exact ⟨a, rfl⟩
  | error e => simp [Except.isOk, Except.toBool] at h

theorem exists_eq_ok_of_any {ε α : Type} {x : Except ε α} {p : α → Bool}
    (h : x.toOption.any p = true) : ∃ a, x = .ok a ∧ p a = true := by
  cases x with
  | error e => exact absurd h (by simp [Except.toOption])
  | ok a => exact ⟨a, rfl, h⟩

end ContextualQuery
