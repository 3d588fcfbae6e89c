import ContextualQuery.Proofs.Reading.Spelling

/-! Reading a part succeeds exactly on the tokens that spell it, and leaves what follows them.

    For each part there is one such statement (`reads_modifiers`, `reads_relation`, …, up to
    `reads_binding`), got from those of the parts it is made of. -/

namespace ContextualQuery.Reading

open Unicode

variable {α : Type} {rules : Rules}

/-- A reading takes exactly what a spelling allows. -/
def Reads (m : Reading α) (S : Spelling α) : Prop :=
  ∀ ts n a s, m (closed ts n) = .ok a s ↔
    ∃ u rest, ts = u ++ rest ∧ S u rest.head? a ∧ s = closed rest n

/-- A reading takes exactly what a spelling allows, where the current token is as asked. -/
def ReadsAt (p : Token → Bool) (m : Reading α) (S : Spelling α) : Prop :=
  ∀ t ts n a s, p t = true → (m (closed (t :: ts) n) = .ok a s ↔
    ∃ u rest, t :: ts = u ++ rest ∧ S u rest.head? a ∧ s = closed rest n)

theorem Reads.readsAt {m : Reading α} {S : Spelling α} (h : Reads m S) (p : Token → Bool) :
    ReadsAt p m S :=
  fun t ts n a s _ => h (t :: ts) n a s

/-! ### Items one after the other -/

/-- Whatever is spelled in this way starts with a token as asked. -/
def StartsWith (p : Token → Bool) (S : Spelling α) : Prop :=
  ∀ u next a, S u next a → ∃ t v, u = t :: v ∧ p t = true

/-- One round of `many`. -/
def push (item : Reading α) (items : List α) : Reading (List α) := return (← item) :: items

/-- One more item in front of those that were read. -/
theorem push_eq_ok {item : Reading α} {items bs : List α} {s t : State} :
    push item items s = .ok bs t ↔ ∃ b, item s = .ok b t ∧ b :: items = bs := by
  rw [push, bind_eq_ok]
  simp only [pure_eq_ok]
  constructor
  · rintro ⟨b, r, run, rfl, rfl⟩
    exact ⟨b, run, rfl⟩
  · rintro ⟨b, run, rfl⟩
    exact ⟨b, t, run, rfl, rfl⟩

/-- Each turn of a loop over items drops a token, as no item is made of none. -/
theorem drops_push {p : Token → Bool} {item : Reading α} {S : Spelling α}
    (reads : ReadsAt p item S) (starts : StartsWith p S) : Drops p (push item) := by
  intro as t ts n bs s ht run
  obtain ⟨b, run, -⟩ := push_eq_ok.1 run
  obtain ⟨u, rest, split, spelled, rfl⟩ := (reads t ts n b s ht).1 run
  obtain ⟨t', v, rfl, -⟩ := starts _ _ _ spelled
  refine ⟨rest, n, rfl, ?_⟩
  rw [split, List.length_append, List.length_cons]
  omega

/-- From the turns of a loop to a sequence of items: by induction on the loop, what each turn took
    is put together. -/
theorem looped_push {p : Token → Bool} {item : Reading α} {S : Spelling α}
    (reads : ReadsAt p item S) {as bs : List α} {s t : State} (loop : Looped p (push item) as s bs t) :
    ∀ ts n, s = closed ts n → ∃ u rest items, ts = u ++ rest ∧ Sequence p S u rest.head? items ∧
      bs = items.reverse ++ as ∧ t = closed rest n := by
  induction loop with
  | stop ends =>
    rintro ts n rfl
    exact ⟨[], ts, [], rfl, .nil (by simpa using ends), rfl, rfl⟩
  | again goesOn once more ih =>
    rintro ts n rfl
    obtain ⟨t, ts, rfl⟩ := List.exists_cons_of_ne_nil (l := ts) (by rintro rfl; simp at goesOn)
    obtain ⟨b, taken, rfl⟩ := push_eq_ok.1 once
    obtain ⟨u, rest, split, spelled, rfl⟩ := (reads t ts n _ _ (by simpa using goesOn)).1 taken
    obtain ⟨v, rest', items, rfl, later, rfl, rfl⟩ := ih rest n rfl
    refine ⟨u ++ v, rest', b :: items, by rw [split, List.append_assoc], ?_, by simp, rfl⟩
    exact .cons (by rwa [← head?_append_eq_ahead]) later

/-- And back: a sequence of items is what the turns of a loop take. -/
theorem Looped.of_sequence {p : Token → Bool} {item : Reading α} {S : Spelling α}
    (reads : ReadsAt p item S) (starts : StartsWith p S) {u : List Token} {next : Option Token}
    {items : List α} (h : Sequence p S u next items) :
    ∀ rest n as, rest.head? = next →
      Looped p (push item) as (closed (u ++ rest) n) (items.reverse ++ as) (closed rest n) := by
  induction h with
  | nil ends =>
    rintro rest n as rfl
    exact .stop (by simpa using ends)
  | @cons u v next b items first _ ih =>
    rintro rest n as rfl
    obtain ⟨t, w, rfl, ht⟩ := starts _ _ _ first
    have once : item (closed ((t :: w) ++ (v ++ rest)) n) = .ok b (closed (v ++ rest) n) :=
      (reads t (w ++ (v ++ rest)) n b _ ht).2
        ⟨t :: w, v ++ rest, rfl, by rwa [head?_append_eq_ahead], rfl⟩
    rw [List.append_assoc, List.reverse_cons, List.append_assoc]
    exact .again (by simpa using ht) (push_eq_ok.2 ⟨b, once, rfl⟩) (ih rest n (b :: as) rfl)

/-- `many` reads items as long as the current token can start one. -/
theorem reads_many {p : Token → Bool} {item : Reading α} {S : Spelling α}
    (reads : ReadsAt p item S) (starts : StartsWith p S) : Reads (many p item) (Sequence p S) := by
  intro ts n items s
  rw [many, Script.many, bind_eq_ok]
  simp only [pure_eq_ok]
  constructor
  · rintro ⟨bs, r, run, rfl, rfl⟩
    obtain ⟨u, rest, items, rfl, spelled, rfl, rfl⟩ :=
      looped_push reads ((foldWhile_eq_ok (drops_push reads starts)).1 run) ts n rfl
    exact ⟨u, rest, rfl, by simpa using spelled, rfl⟩
  · rintro ⟨u, rest, rfl, spelled, rfl⟩
    refine ⟨items.reverse, _, (foldWhile_eq_ok (drops_push reads starts)).2 ?_, by simp, rfl⟩
    simpa using Looped.of_sequence reads starts spelled rest n [] rfl

/-! ### Names and modifiers -/

/-- A word or a quoted text. The token stays, so the lexemes are as before. -/
theorem name_eq_ok {ts : List Token} {n : Nat} {a : QualifiedName} {s : State} :
    name rules (closed ts n) = .ok a s ↔
      ∃ t rest, ts = t :: rest ∧ NameSpelling rules t a ∧ s = closed ts n := by
  rw [name, Script.name, current_bind]
  constructor
  · intro run
    match ts, run with
    | .word w :: rest, run =>
      obtain ⟨split, rfl⟩ := ofExcept_eq_ok.1 run
      exact ⟨_, _, rfl, .word split, rfl⟩
    | .quoted w :: rest, run =>
      cases quotes : rules.rejectQuotedName with
      | true => simp [quotes, bind_eq_ok, refuse_eq_ok] at run
      | false =>
        have run : ofExcept (splitName (Text.unquote w)) (closed (.quoted w :: rest) n) = .ok a s := by
          simpa [quotes] using run
        obtain ⟨split, rfl⟩ := ofExcept_eq_ok.1 run
        exact ⟨_, _, rfl, .quoted quotes split, rfl⟩
  · rintro ⟨t, rest, rfl, spelled, rfl⟩
    cases spelled with
    | word split => exact ofExcept_eq_ok.2 ⟨split, rfl⟩
    | quoted allowed split => simp [allowed, ofExcept_eq_ok, split]

/-- Only words are names of modifiers, and they are lower-cased first. -/
theorem modifierName_eq_ok {ts : List Token} {n : Nat} {a : QualifiedName} {s : State} :
    modifierName (closed ts n) = .ok a s ↔
      ∃ w rest, ts = .word w :: rest ∧ splitName (lowercase w) = .ok a ∧ s = closed ts n := by
  rw [modifierName, Script.modifierName, current_bind]
  constructor
  · intro run
    match ts, run with
    | .word w :: rest, run =>
      obtain ⟨split, rfl⟩ := ofExcept_eq_ok.1 run
      exact ⟨w, rest, rfl, split, rfl⟩
  · rintro ⟨w, rest, rfl, split, rfl⟩
    exact ofExcept_eq_ok.2 ⟨split, rfl⟩

/-- A value is a word or a quoted text, which is dropped. -/
theorem modifierValue_eq_ok {ts : List Token} {n : Nat} {a : String} {s : State} :
    modifierValue (closed ts n) = .ok a s ↔
      ∃ t rest, ts = t :: rest ∧ t.isText = true ∧ t.text = a ∧ s = closed rest n := by
  rw [modifierValue, Script.modifierValue, current_bind]
  constructor
  · intro run
    match ts, run with
    | .word w :: rest, run | .quoted w :: rest, run =>
      simp only [closed_current, List.head?_cons, advance_bind] at run
      obtain ⟨rfl, rfl⟩ := pure_eq_ok.1 run
      exact ⟨_, _, rfl, rfl, rfl, rfl⟩
  · rintro ⟨t, rest, rfl, text, rfl, rfl⟩
    match t, text with
    | .word w, _ | .quoted w, _ => exact (advance_bind _ _).trans (pure_eq_ok.2 ⟨rfl, rfl⟩)

/-- A slash and a name, and a comparison with a value if a comparison stands behind the name. -/
theorem reads_modifier : ReadsAt (· == .slash) modifier ModifierSpelling := by
  intro t ts n m s ht
  obtain rfl : t = .slash := by simpa using ht
  rw [modifier, Script.modifier, advance_bind, bind_eq_ok, List.tail_cons]
  simp only [modifierName_eq_ok]
  constructor
  · rintro ⟨name, r, ⟨w, rest, rfl, split, rfl⟩, run⟩
    rw [advance_bind, current_bind, List.tail_cons, closed_current] at run
    match rest, run with
    -- A comparison behind the name always belongs to the modifier.
    | .comparison c :: rest, run =>
      simp only [List.head?_cons, advance_bind, bind_eq_ok] at run
      obtain ⟨value, r, valued, result⟩ := run
      obtain ⟨v, rest, rfl, text, rfl, rfl⟩ := modifierValue_eq_ok.1 valued
      obtain ⟨rfl, rfl⟩ := pure_eq_ok.1 result
      exact ⟨_, rest, rfl, .valued split text, rfl⟩
    | [], run =>
      obtain ⟨rfl, rfl⟩ := pure_eq_ok.1 run
      exact ⟨_, [], rfl, .plain split rfl, rfl⟩
    | .word _ :: rest, run | .quoted _ :: rest, run | .openParen :: rest, run
    | .closeParen :: rest, run | .slash :: rest, run | .symbol _ :: rest, run =>
      obtain ⟨rfl, rfl⟩ := pure_eq_ok.1 run
      exact ⟨[.slash, .word w], _, rfl, .plain split rfl, rfl⟩
  · rintro ⟨u, rest, split, spelled, rfl⟩
    cases spelled with
    | @plain w name next named ends =>
      obtain rfl : ts = .word w :: rest := by simpa using split
      refine ⟨name, _, ⟨w, rest, rfl, named, rfl⟩, ?_⟩
      rw [advance_bind, current_bind, List.tail_cons, closed_current]
      match rest, ends with
      | [], _ | .word _ :: _, _ | .quoted _ :: _, _ | .openParen :: _, _ | .closeParen :: _, _
      | .slash :: _, _ | .symbol _ :: _, _ => exact pure_eq_ok.2 ⟨rfl, rfl⟩
    | @valued w name c v next named text =>
      obtain rfl : ts = .word w :: .comparison c :: v :: rest := by simpa using split
      refine ⟨name, _, ⟨w, _, rfl, named, rfl⟩, ?_⟩
      simp only [advance_bind, current_bind, List.tail_cons, closed_current, List.head?_cons]
      refine bind_eq_ok.2 ⟨_, _, modifierValue_eq_ok.2 ⟨v, rest, rfl, text, rfl, rfl⟩, ?_⟩
      exact pure_eq_ok.2 ⟨rfl, rfl⟩

theorem startsWith_modifier : StartsWith (· == .slash) ModifierSpelling := by
  rintro u next m (_ | _) <;> exact ⟨_, _, rfl, rfl⟩

theorem reads_modifiers : Reads modifiers ModifiersSpelling :=
  reads_many reads_modifier startsWith_modifier

/-! ### Relations, booleans, sort keys -/

/-- What is made of the modifiers behind a token. -/
theorem advance_modifiers_eq_ok {make : List Modifier → α} {t : Token} {ts : List Token} {n : Nat}
    {a : α} {s : State} :
    (do advance
        return make (← modifiers)) (closed (t :: ts) n) = .ok a s ↔
      ∃ u rest ms, ts = u ++ rest ∧ ModifiersSpelling u rest.head? ms ∧ make ms = a ∧
        s = closed rest n := by
  rw [advance_bind, List.tail_cons, bind_eq_ok]
  simp only [pure_eq_ok]
  constructor
  · rintro ⟨ms, r, taken, rfl, rfl⟩
    obtain ⟨u, rest, rfl, refined, rfl⟩ := (reads_modifiers _ _ _ _).1 taken
    exact ⟨u, rest, ms, rfl, refined, rfl, rfl⟩
  · rintro ⟨u, rest, ms, rfl, refined, rfl, rfl⟩
    exact ⟨ms, _, (reads_modifiers _ _ _ _).2 ⟨u, rest, rfl, refined, rfl⟩, rfl, rfl⟩

/-- A comparison, or a word that splits as a name, with modifiers. -/
theorem reads_relation : Reads relation RelationSpelling := by
  intro ts n a s
  rw [relation, Script.relation, current_bind, closed_current]
  constructor
  · intro run
    match ts, run with
    | .comparison c :: ts, run =>
      obtain ⟨u, rest, ms, rfl, refined, rfl, rfl⟩ := advance_modifiers_eq_ok.1 run
      exact ⟨.comparison c :: u, rest, rfl, .comparison refined, rfl⟩
    | .word w :: ts, run =>
      obtain ⟨name, r, checked, run⟩ := bind_eq_ok.1 run
      obtain ⟨split, rfl⟩ := ofExcept_eq_ok.1 checked
      obtain ⟨u, rest, ms, rfl, refined, rfl, rfl⟩ := advance_modifiers_eq_ok.1 run
      exact ⟨.word w :: u, rest, rfl, .word split refined, rfl⟩
  · rintro ⟨u, rest, rfl, spelled, rfl⟩
    cases spelled with
    | @comparison c u next ms refined =>
      exact advance_modifiers_eq_ok.2 ⟨u, rest, ms, rfl, refined, rfl, rfl⟩
    | @word w name u next ms split refined =>
      refine bind_eq_ok.2 ⟨name, _, ofExcept_eq_ok.2 ⟨split, rfl⟩, ?_⟩
      exact advance_modifiers_eq_ok.2 ⟨u, rest, ms, rfl, refined, rfl, rfl⟩

/-- One of the four words, with modifiers. -/
theorem reads_boolean : Reads boolean BooleanSpelling := by
  intro ts n a s
  rw [boolean, Script.boolean, current_bind, closed_current]
  constructor
  · intro run
    match ts, run with
    | .word w :: ts, run =>
      rw [List.head?_cons] at run
      cases joins : Connective.ofWord? w with
      | none => simp [joins, refuse_eq_ok] at run
      | some c =>
        simp only [joins] at run
        obtain ⟨u, rest, ms, rfl, refined, rfl, rfl⟩ := advance_modifiers_eq_ok.1 run
        exact ⟨.word w :: u, rest, rfl, .word joins refined, rfl⟩
  · rintro ⟨_, rest, rfl, @⟨w, c, u, next, ms, joins, refined⟩, rfl⟩
    simp only [List.cons_append, List.head?_cons, joins]
    exact advance_modifiers_eq_ok.2 ⟨u, rest, ms, rfl, refined, rfl, rfl⟩

/-- A name that is dropped behind its reading, with modifiers. -/
theorem reads_sortKey : Reads (sortKey rules) (KeySpelling rules) := by
  intro ts n a s
  rw [sortKey, Script.sortKey, bind_eq_ok]
  simp only [name_eq_ok]
  constructor
  · rintro ⟨name, r, ⟨t, ts, rfl, named, rfl⟩, run⟩
    obtain ⟨u, rest, ms, rfl, refined, rfl, rfl⟩ := advance_modifiers_eq_ok.1 run
    exact ⟨t :: u, rest, rfl, .key named refined, rfl⟩
  · rintro ⟨_, rest, rfl, @⟨t, name, u, next, ms, named, refined⟩, rfl⟩
    refine ⟨name, _, ⟨t, u ++ rest, rfl, named, rfl⟩, ?_⟩
    exact advance_modifiers_eq_ok.2 ⟨u, rest, ms, rfl, refined, rfl, rfl⟩

theorem startsWith_key : StartsWith Token.isText (KeySpelling rules) := by
  rintro u next k ⟨named, refined⟩
  cases named <;> exact ⟨_, _, rfl, rfl⟩

/-- The loop takes texts for as long as they come, and asks for one at least. -/
theorem reads_sortKeys : Reads (sortKeys rules)
    (fun u next keys => keys ≠ [] ∧ KeysSpelling rules u next keys) := by
  intro ts n keys s
  rw [sortKeys, Script.sortKeys, currentIs_bind, closed_current]
  have many : Reads (many Token.isText (sortKey rules)) (KeysSpelling rules) :=
    reads_many (reads_sortKey.readsAt Token.isText) startsWith_key
  constructor
  · intro run
    cases text : ts.head?.any Token.isText with
    | false => simp [text, refuse_eq_ok] at run
    | true =>
      rw [text, if_pos rfl] at run
      obtain ⟨u, rest, rfl, spelled, rfl⟩ := (many ts n keys s).1 run
      refine ⟨u, rest, rfl, ⟨?_, spelled⟩, rfl⟩
      rintro rfl
      cases spelled with
      | nil ends => exact absurd (ends.symm.trans text) (by simp)
  · rintro ⟨u, rest, rfl, ⟨some_key, spelled⟩, rfl⟩
    have text : (u ++ rest).head?.any Token.isText = true := by
      cases spelled with
      | nil ends => exact absurd rfl some_key
      | cons first more =>
        obtain ⟨t, v, rfl, ht⟩ := startsWith_key _ _ _ first
        simpa using ht
    rw [text, if_pos rfl]
    exact (many _ n keys _).2 ⟨u, rest, rfl, spelled, rfl⟩

/-! ### Terms -/

/-- One token that passes as a term. -/
theorem reads_term : Reads (term rules)
    (fun u _ a => ∃ w, u = [w] ∧ termOf rules (some w) = .ok a) := by
  intro ts n a s
  rw [term, Script.term, current_bind, bind_eq_ok, closed_current]
  simp only [ofExcept_eq_ok]
  constructor
  · rintro ⟨b, r, ⟨found, rfl⟩, run⟩
    match ts, found with
    | w :: ts, found =>
      rw [advance_bind] at run
      obtain ⟨rfl, rfl⟩ := pure_eq_ok.1 run
      exact ⟨[w], ts, rfl, ⟨w, rfl, found⟩, rfl⟩
  · rintro ⟨u, rest, rfl, ⟨w, rfl, found⟩, rfl⟩
    exact ⟨a, _, ⟨found, rfl⟩, (advance_bind _ _).trans (pure_eq_ok.2 ⟨rfl, rfl⟩)⟩

/-! ### Declarations -/

/-- A slash, with the word behind it if there is one. -/
theorem reads_segment : ReadsAt (· == .slash) identifierSegment SegmentSpelling := by
  intro t ts n a s ht
  obtain rfl : t = .slash := by simpa using ht
  rw [identifierSegment, Script.identifierSegment, advance_bind, current_bind, List.tail_cons,
    closed_current]
  constructor
  · intro run
    match ts, run with
    | .word w :: rest, run =>
      simp only [List.head?_cons, advance_bind, List.tail_cons] at run
      obtain ⟨rfl, rfl⟩ := pure_eq_ok.1 run
      exact ⟨[.slash, .word w], rest, rfl, .word, rfl⟩
    | [], run =>
      obtain ⟨rfl, rfl⟩ := pure_eq_ok.1 run
      exact ⟨[.slash], [], rfl, .slash (by simp), rfl⟩
    | .comparison _ :: rest, run | .quoted _ :: rest, run | .openParen :: rest, run
    | .closeParen :: rest, run | .slash :: rest, run | .symbol _ :: rest, run =>
      obtain ⟨rfl, rfl⟩ := pure_eq_ok.1 run
      exact ⟨[.slash], _, rfl, .slash (by simp), rfl⟩
  · rintro ⟨u, rest, split, spelled, rfl⟩
    cases spelled with
    | slash ends =>
      obtain rfl : ts = rest := by simpa using split
      match ts, ends with
      | [], _ | .comparison _ :: _, _ | .quoted _ :: _, _ | .openParen :: _, _
      | .closeParen :: _, _ | .slash :: _, _ | .symbol _ :: _, _ => exact pure_eq_ok.2 ⟨rfl, rfl⟩
      -- A word behind the slash would have been taken with it.
      | .word w :: _, ends => exact absurd rfl (ends w)
    | @word w =>
      obtain rfl : ts = .word w :: rest := by simpa using split
      exact (advance_bind _ _).trans (pure_eq_ok.2 ⟨rfl, rfl⟩)

theorem startsWith_segment : StartsWith (· == .slash) SegmentSpelling := by
  rintro u next a (_ | _) <;> exact ⟨_, _, rfl, rfl⟩

/-- A quoted text, or a word with all the segments that follow it. -/
theorem reads_identifier : Reads (identifier rules) (IdentifierSpelling rules) := by
  intro ts n a s
  rw [identifier, Script.identifier, current_bind, closed_current]
  have segments := reads_many reads_segment startsWith_segment
  constructor
  · intro run
    match ts, run with
    | .quoted w :: rest, run =>
      cases quotes : rules.rejectQuotedName with
      | true => simp [quotes, bind_eq_ok, refuse_eq_ok] at run
      | false =>
        simp only [List.head?_cons, quotes, Bool.false_eq_true, if_false, advance_bind] at run
        obtain ⟨rfl, rfl⟩ := pure_eq_ok.1 run
        exact ⟨[.quoted w], rest, rfl, .quoted quotes, rfl⟩
    | .word w :: ts, run =>
      simp only [List.head?_cons, advance_bind, List.tail_cons, bind_eq_ok] at run
      obtain ⟨as, r, taken, result⟩ := run
      obtain ⟨u, rest, rfl, path, rfl⟩ := (segments _ _ _ _).1 taken
      obtain ⟨rfl, rfl⟩ := pure_eq_ok.1 result
      exact ⟨.word w :: u, rest, rfl, .path path, rfl⟩
  · rintro ⟨u, rest, rfl, spelled, rfl⟩
    cases spelled with
    | quoted allowed =>
      simp only [List.cons_append, List.head?_cons, allowed, Bool.false_eq_true, if_false,
        advance_bind]
      exact pure_eq_ok.2 ⟨rfl, rfl⟩
    | @path w v next as path =>
      have taken := (segments (v ++ rest) n as _).2 ⟨v, rest, rfl, path, rfl⟩
      exact (advance_bind _ _).trans (bind_eq_ok.2 ⟨as, _, taken, pure_eq_ok.2 ⟨rfl, rfl⟩⟩)

theorem identifierSpelling_ne_nil {u : List Token} {next : Option Token} {a : String}
    (h : IdentifierSpelling rules u next a) : u ≠ [] := by
  cases h <;> simp

/-- A declaration as it is written, without a look at the group it belongs to. -/
def binding (rules : Rules) : Reading (String × String) := do
  advance
  let name ← prefixName
  let identifier ← identifier rules
  return (name, identifier)

/-- Where `=` stands behind the word, the word is the short name and both are dropped. -/
theorem prefixName_named {ts : List Token} {n : Nat} {a : String} {s : State}
    (named : ts[1]? = some (.comparison .eq)) :
    prefixName (closed ts n) = .ok a s ↔
      ∃ w rest, ts = .word w :: .comparison .eq :: rest ∧ lowercase w = a ∧ s = closed rest n := by
  obtain ⟨t, rest, rfl⟩ : ∃ t rest, ts = t :: .comparison .eq :: rest := by
    match ts, named with
    | t :: _ :: rest, named => exact ⟨t, rest, by simpa using named⟩
  rw [prefixName, Script.prefixName, following_bind, closed_following, if_pos (by simp),
    current_bind, closed_current]
  constructor
  · intro run
    match t, run with
    | .word w, run =>
      simp only [List.head?_cons, advance_bind, List.tail_cons] at run
      obtain ⟨rfl, rfl⟩ := pure_eq_ok.1 run
      exact ⟨w, rest, rfl, rfl, rfl⟩
  · rintro ⟨w, rest, split, rfl, rfl⟩
    obtain ⟨rfl, rfl⟩ : t = .word w ∧ _ = rest := by simpa using split
    simp only [List.head?_cons, advance_bind, List.tail_cons]
    exact pure_eq_ok.2 ⟨rfl, rfl⟩

/-- Where it does not, nothing is dropped. -/
theorem prefixName_unnamed {ts : List Token} {n : Nat} {a : String} {s : State}
    (nameless : ts[1]? ≠ some (.comparison .eq)) :
    prefixName (closed ts n) = .ok a s ↔ "" = a ∧ s = closed ts n := by
  rw [prefixName, Script.prefixName, following_bind, closed_following,
    if_neg (by simpa using nameless), pure_eq_ok, eq_comm (a := closed ts n)]

/-- The token behind the first one: of the tokens themselves, or the one that follows them. -/
theorem getElem?_one_append {u : List Token} (rest : List Token) (h : u ≠ []) :
    (u ++ rest)[1]? = ahead u.tail rest.head? := by
  match u, h with
  | [t], _ => cases rest <;> rfl
  | t :: t' :: u, _ => rfl

/-- The two kinds of declarations, `>i` and `>n=i`. -/
theorem reads_binding :
    ReadsAt (· == .comparison .gt) (binding rules) (DeclarationSpelling rules) := by
  intro t ts n a s ht
  obtain rfl : t = .comparison .gt := by simpa using ht
  rw [binding, advance_bind, bind_eq_ok, List.tail_cons]
  constructor
  · rintro ⟨name, r, named, run⟩
    obtain ⟨identifier, r', taken, result⟩ := bind_eq_ok.1 run
    obtain ⟨rfl, rfl⟩ := pure_eq_ok.1 result
    by_cases nameless : ts[1]? = some (.comparison .eq)
    · obtain ⟨w, ts, rfl, rfl, rfl⟩ := (prefixName_named nameless).1 named
      obtain ⟨u, rest, rfl, bound, rfl⟩ := (reads_identifier _ _ _ _).1 taken
      exact ⟨.comparison .gt :: .word w :: .comparison .eq :: u, rest, rfl, .named bound, rfl⟩
    · obtain ⟨rfl, rfl⟩ := (prefixName_unnamed nameless).1 named
      obtain ⟨u, rest, rfl, bound, rfl⟩ := (reads_identifier _ _ _ _).1 taken
      -- What is second was seen before the identifier was read, and is its second token or what
      -- follows it.
      rw [getElem?_one_append rest (identifierSpelling_ne_nil bound)] at nameless
      exact ⟨.comparison .gt :: u, rest, rfl, .unnamed bound nameless, rfl⟩
  · rintro ⟨v, rest, split, spelled, rfl⟩
    cases spelled with
    | @named w u next identifier bound =>
      obtain rfl : ts = .word w :: .comparison .eq :: (u ++ rest) := by simpa using split
      have taken := (reads_identifier (u ++ rest) n identifier _).2 ⟨u, rest, rfl, bound, rfl⟩
      exact ⟨_, _, (prefixName_named rfl).2 ⟨w, _, rfl, rfl, rfl⟩,
        bind_eq_ok.2 ⟨_, _, taken, pure_eq_ok.2 ⟨rfl, rfl⟩⟩⟩
    | @unnamed u next identifier bound nameless =>
      obtain rfl : ts = u ++ rest := by simpa using split
      have taken := (reads_identifier (u ++ rest) n identifier _).2 ⟨u, rest, rfl, bound, rfl⟩
      rw [← getElem?_one_append rest (identifierSpelling_ne_nil bound)] at nameless
      exact ⟨_, _, (prefixName_unnamed nameless).2 ⟨rfl, rfl⟩,
        bind_eq_ok.2 ⟨_, _, taken, pure_eq_ok.2 ⟨rfl, rfl⟩⟩⟩

theorem startsWith_binding :
    StartsWith (· == .comparison .gt) (DeclarationSpelling rules) := by
  rintro u next a (_ | _) <;> exact ⟨_, _, rfl, rfl⟩

end ContextualQuery.Reading
