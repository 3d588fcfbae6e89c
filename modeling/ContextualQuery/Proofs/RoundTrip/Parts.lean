import ContextualQuery.Clause
import ContextualQuery.Proofs.RoundTrip.Names
import ContextualQuery.Query.Printer
import Mathlib.Data.List.Infix
import Mathlib.Data.List.TakeDrop

/-! The parts of queries, written and read once more.

    `Legible` says that what is written for a part is read as that part. It is got part by part for
    whatever was read (`Sourced`), where all that is written in one piece is read in one piece
    (`Worded`). With the usual punctuation, and no dotted capital I, two names are not: that of a
    modifier which is no bare word, and a relation that would be taken for a keyword without its
    set. -/

namespace ContextualQuery

open Lexemes Reading Unicode

variable {α : Type} {rules : Rules} {S : Spelling α} {first bars p : Token → Bool}
  {punctuation text s : String} {rest set base : List Char} {T : Token → Prop} {t v w : Token}
  {u : List Token} {next : Option Token} {x : α}

/-- Whether a part was read from tokens as asked. -/
def Sourced (T : Token → Prop) (S : Spelling α) (x : α) : Prop :=
  ∃ u next, (∀ t ∈ u, T t) ∧ S u next x

/-- Whether a text is read as `x`, with a first token as asked, unless it is followed by a token
    that bars it. -/
def Legible (punctuation : String) (S : Spelling α) (first bars : Token → Bool) (text : String)
    (x : α) : Prop :=
  ∃ u, Prints punctuation text u ∧ u.head?.any first = true ∧ ∀ next, next.any bars = false → S u next x

/-! ### Items one after the other -/

/-- Items of a sequence are made of its tokens. -/
theorem sourced_of_sequence {xs : List α} (h : Sequence p S u next xs) (tokens : ∀ t ∈ u, T t) :
    ∀ x ∈ xs, Sourced T S x :=
  forall_of_sequence (fun _ _ _ spelled tokens => ⟨_, _, tokens, spelled⟩) h tokens

/-- Tokens that something can be written in front of if neither they nor what follows them begins
    with a barred token. -/
theorem any_ahead_eq_false (h : u.head?.any first = true) (apart : ∀ t, first t = true → bars t = false)
    (next : Option Token) : (ahead u next).any bars = false := by
  cases u with
  | nil => simp at h
  | cons t u => exact apart t h

/-- Items that are printed one behind the other are read back one by one: no item starts with a
    token that would go on with the one before. -/
theorem exists_sequence {write : α → String} {xs : List α}
    (legible : ∀ x ∈ xs, Legible punctuation S first bars (write x) x)
    (apart : ∀ t, first t = true → bars t = false) :
    ∃ uss, List.Forall₂ (Prints punctuation) (xs.map write) uss ∧
      (xs ≠ [] → uss.flatten.head?.any first = true) ∧
      ∀ next, next.any first = false → next.any bars = false →
        Sequence first S uss.flatten next xs := by
  induction xs with
  | nil => exact ⟨[], .nil, by simp, fun next ends _ => .nil ends⟩
  | cons x xs ih =>
    obtain ⟨⟨u, prints, head, spells⟩, later⟩ := List.forall_mem_cons.1 legible
    obtain ⟨uss, prints', head', spells'⟩ := ih later
    refine ⟨u :: uss, .cons prints prints', fun _ => ?_, fun next ends ends' => ?_⟩
    · cases u with
      | nil => simp at head
      | cons t u => exact head
    · refine .cons (spells _ ?_) (spells' next ends ends')
      by_cases last : xs = []
      · subst last
        cases prints'
        exact ends'
      · exact any_ahead_eq_false (head' last) apart next

/-! ### The last item of a text -/

/-- Whether all elements of a list but the last one satisfy `P`, and the last one `Q`. -/
def UpToLast (P Q : α → Prop) (xs : List α) : Prop :=
  (∀ x ∈ xs.dropLast, P x) ∧ ∀ x ∈ xs.getLast?, Q x

instance (P Q : α → Prop) [DecidablePred P] [DecidablePred Q] (xs : List α) :
    Decidable (UpToLast P Q xs) :=
  inferInstanceAs (Decidable ((∀ x ∈ xs.dropLast, P x) ∧ ∀ x ∈ xs.getLast?, Q x))

/-- Less may be asked of the last item, and of the others. -/
theorem UpToLast.imp {P Q P' Q' : α → Prop} {xs : List α} (h : UpToLast P Q xs)
    (all : ∀ x ∈ xs, P x → P' x) (last : ∀ x ∈ xs, Q x → Q' x) : UpToLast P' Q' xs :=
  ⟨fun x hx => all x (List.mem_of_mem_dropLast hx) (h.1 x hx),
    fun x hx => last x (List.mem_of_getLast? hx) (h.2 x hx)⟩

theorem UpToLast.of_forall {P Q : α → Prop} {xs : List α} (h : ∀ x ∈ xs, P x)
    (last : ∀ x, P x → Q x) : UpToLast P Q xs :=
  ⟨fun x hx => h x (List.mem_of_mem_dropLast hx),
    fun x hx => last x (h x (List.mem_of_getLast? hx))⟩

/-- Whether a text at the end of another is read as `x`, with a first token as asked. -/
def LegibleLast (punctuation : String) (S : Spelling α) (first : Token → Bool) (text : String)
    (x : α) : Prop :=
  ∃ u, Lexes punctuation text.toList u ∧ u.head?.any first = true ∧ S u none x

/-- What is read back anywhere is read back at the end of a text. -/
theorem Legible.last (h : Legible punctuation S first bars text x) :
    LegibleLast punctuation S first text x := by
  obtain ⟨u, prints, head, spells⟩ := h
  exact ⟨u, prints.lexes, head, spells none rfl⟩

/-- Texts that start with one mark start with it when they are joined. -/
theorem head_join {write : α → String} {mark : Char}
    (starts : ∀ x, ∃ cs, (write x).toList = mark :: cs) (xs : List α) :
    ∀ c ∈ (String.join (xs.map write)).toList.head?, c = mark := by
  cases xs with
  | nil => simp
  | cons x xs =>
    obtain ⟨cs, chars⟩ := starts x
    simp [chars]

/-- Items that each start with a space or a slash, at the end of a text. -/
theorem exists_sequence_last [Harmless punctuation] {write : α → String} {mark : Char}
    (marked : mark ∈ [' ', '/', ')']) (starts : ∀ x, ∃ cs, (write x).toList = mark :: cs)
    (apart : ∀ t, first t = true → bars t = false) {xs : List α}
    (legible : UpToLast (fun x => Legible punctuation S first bars (write x) x)
      (fun x => LegibleLast punctuation S first (write x) x) xs) :
    ∃ u, Lexes punctuation (String.join (xs.map write)).toList u ∧
      (xs ≠ [] → u.head?.any first = true) ∧ Sequence first S u none xs := by
  induction xs with
  | nil => exact ⟨[], .nil (by simp), by simp, .nil rfl⟩
  | cons x xs ih =>
    cases xs with
    | nil =>
      obtain ⟨u, lexes, head, spelled⟩ := legible.2 x rfl
      refine ⟨u, by simpa using lexes, fun _ => head, ?_⟩
      simpa using Sequence.cons (v := []) spelled (.nil rfl)
    | cons y xs =>
      obtain ⟨front, back⟩ := legible
      rw [List.dropLast_cons_cons, List.forall_mem_cons] at front
      rw [List.getLast?_cons_cons] at back
      obtain ⟨⟨u, prints, head, spells⟩, front⟩ := front
      obtain ⟨v, lexes, head', spelled⟩ := ih ⟨front, back⟩
      refine ⟨u ++ v, ?_, fun _ => ?_, .cons (spells _ ?_) spelled⟩
      · rw [List.map_cons, String.join_cons]
        exact prints.lexes_append lexes fun c hc => head_join starts _ c hc ▸ marked
      · cases u with
        | nil => simp at head
        | cons t u => exact head
      · exact any_ahead_eq_false (head' (List.cons_ne_nil _ _)) apart none

/-! ### Modifiers -/

/-- Whether a token behind modifiers is taken as one of theirs. -/
def Token.modifies (t : Token) : Bool := t == .slash || t.isComparison

/-- Whether the name of a modifier can be written behind a slash. -/
def Modifier.Plain (m : Modifier) : Prop :=
  ∀ c ∈ m.name.full.toList, isWordChar defaultWordChars c = true

instance (m : Modifier) : Decidable m.Plain :=
  decidable_of_iff (m.name.full.toList.all (isWordChar defaultWordChars) = true) List.all_eq_true

/-- Whether what is written for the name of a modifier is read as one word, and its value ends. -/
def Modifier.Worded (punctuation : String) (m : Modifier) : Prop :=
  IsWord punctuation m.name.text ∧ endsOpen m.value.toList = false

instance (m : Modifier) : Decidable (m.Worded punctuation) := inferInstanceAs (Decidable (_ ∧ _))

theorem prints_modifier (hs : (Token.word s).Alone punctuation) :
    Prints punctuation ("/" ++ s) [.slash, .word s] := by
  intro more ts boundary later
  rw [String.toList_append, List.append_assoc]
  exact Takes.slash.lexes (hs.prints _ _ boundary later)

section

variable [Harmless punctuation]

/-- A name is written without quotes where it is read as one word. -/
theorem QualifiedName.text_eq_full {n : QualifiedName} (word : IsWord punctuation n.text) :
    n.text = n.full := by
  rw [text] at word ⊢
  split at word
  next bare => rw [if_pos bare]
  next quoted =>
    obtain ⟨-, escaped⟩ := word
    rw [Text.toList_quote] at escaped
    exact absurd escaped.opens_head.1 (by decide)

/-- A lower-cased name that is split and joined again is what it was. -/
theorem QualifiedName.text_eq_lowercase {n : QualifiedName} (split : splitName (lowercase s) = .ok n)
    (word : IsWord punctuation n.text) : n.text = lowercase s := by
  rw [text_eq_full word, full_of_splitName_lowercase split]

/-- A name and a comparison in front of what does not go on in the comparison. -/
theorem lexes_modifier (hs : (Token.word s).Alone punctuation) (c : Comparator) {more : List Char}
    {ts : List Token} (head : ∀ d ∈ more.head?, d ≠ '=' ∧ d ≠ '>')
    (value : Lexes punctuation more ts) :
    Lexes punctuation (("/" ++ s ++ c.text).toList ++ more)
      (.slash :: .word s :: .comparison c :: ts) := by
  obtain ⟨some_char, escaped⟩ := hs.word
  have compared := (takes_comparator c head).lexes value
  have named := (takes_word some_char escaped (stops_comparator c _)).lexes compared
  simpa using Takes.slash.lexes named

/-- A modifier with a value is four tokens. -/
theorem prints_modifier_value (hs : (Token.word s).Alone punctuation) (c : Comparator)
    (hv : v.Alone punctuation) (text : v.isText = true) :
    Prints punctuation ("/" ++ s ++ c.text ++ v.text) [.slash, .word s, .comparison c, v] := by
  intro more ts boundary later
  rw [String.toList_append, List.append_assoc]
  exact lexes_modifier hs c (hv.lexed.head text more) (hv.prints _ _ boundary later)

/-- A modifier whose name is a word, and whose value is one if there is a value. -/
theorem legible_modifier {m : Modifier} (sourced : Sourced (Token.Lexed punctuation) ModifierSpelling m)
    (worded : m.Worded punctuation) :
    Legible punctuation ModifierSpelling (· == .slash) Token.isComparison m.text m := by
  obtain ⟨u, next, lexed, spelled⟩ := sourced
  obtain ⟨word, ended⟩ := worded
  cases spelled with
  | @plain s name next split ends =>
    -- The name is written lower-cased, so what is read again is its lower-cased text.
    have text : name.text = lowercase s := QualifiedName.text_eq_lowercase split word
    rw [text] at word
    refine ⟨[.slash, .word (lowercase s)], ?_, rfl, fun next ends => ?_⟩
    · simpa [Modifier.text, Modifier.texts, text] using
        prints_modifier (Token.alone_word word.1 word.2)
    · exact .plain (by rwa [lowercase_lowercase]) ends
  | @valued s name c v next split text =>
    have name_text : name.text = lowercase s := QualifiedName.text_eq_lowercase split word
    rw [name_text] at word
    have closed : v.isOpen = false := by
      cases v with
      | word s => exact ended
      | _ => rfl
    have value : v.Alone punctuation := (lexed v (by simp)).alone closed
    refine ⟨[.slash, .word (lowercase s), .comparison c, v], ?_, rfl, fun next ends => ?_⟩
    · simpa [Modifier.text, Modifier.texts, name_text, String.append_assoc] using
        prints_modifier_value (Token.alone_word word.1 word.2) c value text
    · exact .valued (by rwa [lowercase_lowercase]) text

/-- At the end of a text the value of a modifier may be open. -/
theorem legible_modifier_last {m : Modifier}
    (sourced : Sourced (Token.Lexed punctuation) ModifierSpelling m)
    (word : IsWord punctuation m.name.text) :
    LegibleLast punctuation ModifierSpelling (· == .slash) m.text m := by
  by_cases ended : endsOpen m.value.toList = false
  · exact (legible_modifier sourced ⟨word, ended⟩).last
  · obtain ⟨u, next, lexed, spelled⟩ := sourced
    cases spelled with
    | plain => exact absurd rfl ended
    | @valued s name c v next split text =>
      have name_text : name.text = lowercase s := QualifiedName.text_eq_lowercase split word
      rw [name_text] at word
      have value : v.Lexed punctuation := lexed v (by simp)
      refine ⟨[.slash, .word (lowercase s), .comparison c, v], ?_, rfl, ?_⟩
      · have written := lexes_modifier (Token.alone_word word.1 word.2) c
          (by simpa using value.head text []) value.lexes
        simpa [Modifier.text, Modifier.texts, name_text] using written
      · exact .valued (by rwa [lowercase_lowercase]) text

end

/-- Modifiers start with a slash. -/
theorem Modifier.head_text (m : Modifier) : ∃ cs, m.text.toList = '/' :: cs := by
  obtain ⟨name, refinements, comparison, value⟩ := m
  cases comparison <;> exact ⟨_, by simp [Modifier.text]; rfl⟩

theorem Modifier.texts_eq (ms : List Modifier) : texts ms = String.join (ms.map Modifier.text) := by
  induction ms with
  | nil => rfl
  | cons m ms ih => rw [texts, ih, List.map_cons, String.join_cons]

/-- Modifiers end the word in front of them. -/
theorem Modifier.head_texts (ms : List Modifier) :
    ∀ c ∈ (Modifier.texts ms).toList.head?, c ∈ [' ', '/', ')'] := by
  intro c hc
  rw [texts_eq] at hc
  simp [head_join head_text ms c hc]

section

variable [Harmless punctuation]

/-- Modifiers are printed without blanks between them. -/
theorem prints_texts {ms : List Modifier} {uss : List (List Token)}
    (h : List.Forall₂ (Prints punctuation) (ms.map Modifier.text) uss) :
    Prints punctuation (Modifier.texts ms) uss.flatten := by
  induction ms generalizing uss with
  | nil =>
    cases h
    exact .nil
  | cons m ms ih =>
    obtain _ | ⟨first, later⟩ := h
    exact first.append (ih later) (Modifier.head_texts ms)

/-- Modifiers that were read are written as they can be read. -/
theorem exists_modifiers_written {ms : List Modifier} (spelled : ModifiersSpelling u next ms)
    (lexed : ∀ t ∈ u, t.Lexed punctuation) (worded : ∀ m ∈ ms, m.Worded punctuation) :
    ∃ u, Prints punctuation (Modifier.texts ms) u ∧
      ∀ next, next.any Token.modifies = false → ModifiersSpelling u next ms := by
  have legible : ∀ m ∈ ms,
      Legible punctuation ModifierSpelling (· == .slash) Token.isComparison m.text m :=
    fun m hm => legible_modifier (sourced_of_sequence spelled lexed m hm) (worded m hm)
  obtain ⟨uss, prints, -, spells⟩ := exists_sequence legible fun t ht => by
    obtain rfl : t = .slash := by simpa using ht
    rfl
  refine ⟨_, prints_texts prints, fun next ends => spells next ?_ ?_⟩
  all_goals
    cases next with
    | none => rfl
    | some t => simp_all [Token.modifies]

/-- Whether modifiers are written as they can be read at the end of a text, where the value of the
    last one may be open. -/
abbrev Modifier.WordedLast (punctuation : String) (ms : List Modifier) : Prop :=
  UpToLast (·.Worded punctuation) (fun m => IsWord punctuation m.name.text) ms

/-- At the end of a text the value of the last modifier may end with a backslash. -/
theorem exists_modifiers_last {ms : List Modifier} (spelled : ModifiersSpelling u next ms)
    (lexed : ∀ t ∈ u, t.Lexed punctuation) (worded : Modifier.WordedLast punctuation ms) :
    ∃ u, Lexes punctuation (Modifier.texts ms).toList u ∧ ModifiersSpelling u none ms := by
  have sourced := sourced_of_sequence spelled lexed
  have legible := worded.imp (fun m hm => legible_modifier (sourced m hm))
    (fun m hm => legible_modifier_last (sourced m hm))
  have apart (t : Token) (ht : (t == .slash) = true) : t.isComparison = false := by
    obtain rfl : t = .slash := by simpa using ht
    rfl
  obtain ⟨u, lexes, -, spelled⟩ :=
    exists_sequence_last (by decide) Modifier.head_text apart legible
  exact ⟨u, by rwa [Modifier.texts_eq], spelled⟩

end

/-! ### Terms -/

/-- A term is written as the token it was read from, which is not taken for part of a modifier. -/
theorem text_of_termOf {term : Term} (h : termOf rules (some w) = .ok term) :
    w.text = term.text ∧ w.modifies = false := by
  match w, h with
  | .word _, h | .quoted _, h | .symbol _, h => exact ⟨(checkTerm_eq_ok h).1.symm, rfl⟩

theorem escapesAreSpecial_cons {c : Char} (plain : c ≠ '\\') (cs : List Char) :
    escapesAreSpecial (c :: cs) = escapesAreSpecial cs := by
  rw [escapesAreSpecial.eq_3 _ _ (by simp [plain]) (by simp [plain])]

/-- Without a backslash nothing is escaped. -/
theorem escapesAreSpecial_of_not_mem {cs : List Char} (plain : '\\' ∉ cs) :
    escapesAreSpecial cs = true := by
  induction cs with
  | nil => rfl
  | cons c cs ih =>
    rw [List.mem_cons, not_or] at plain
    rw [escapesAreSpecial_cons (Ne.symm plain.1), ih plain.2]

/-- A backslash that holds nothing is none that holds a special character. -/
theorem not_special_of_open {admits : Char → Bool} {cs : List Char} (escaped : Escaped admits cs) :
    escapesAreSpecial (cs ++ ['\\']) = false := by
  induction escaped with
  | nil => rfl
  | pair _ ih =>
    rw [List.cons_append, List.cons_append, escapesAreSpecial, ih, Bool.and_false]
  | char plain _ _ ih => rw [List.cons_append, escapesAreSpecial_cons plain, ih]

/-- A term is not open, as a backslash has to hold something in it. -/
theorem isOpen_of_termOf (lexed : w.Lexed punctuation) {term : Term}
    (h : termOf rules (some w) = .ok term) : w.isOpen = false := by
  obtain ⟨u, rest, taken⟩ := lexed
  cases taken with
  | word _ escaped _ => simpa [Token.isOpen] using escaped.endsOpen_eq
  | openWord _ escaped =>
    obtain ⟨-, special⟩ := checkTerm_eq_ok h
    rw [String.toList_ofList, not_special_of_open escaped] at special
    contradiction
  | _ => rfl

/-! ### Relations -/

/-- The words that are never taken for a relation. -/
def keywords : List String := ["and", "or", "not", "prox", "sortby"]

/-- Whether a relation can be written: without its set it must not be empty nor a keyword. -/
def Relation.Plain (r : Relation) : Prop :=
  r.set = ContextSet.cqlName → ∀ name, r.kind = .named name → name ≠ "" ∧ name ∉ keywords

instance (r : Relation) : Decidable r.Plain :=
  match r with
  | ⟨set, .named name, _⟩ =>
    decidable_of_iff (set = ContextSet.cqlName → name ≠ "" ∧ name ∉ keywords)
      ⟨fun h own _ same => RelationKind.named.inj same ▸ h own, fun h own => h own name rfl⟩
  | ⟨_, .comparison _, _⟩ | ⟨_, .all, _⟩ | ⟨_, .any, _⟩ => isTrue (fun _ _ => nofun)

/-- How a relation is written without its modifiers. -/
def Relation.head (r : Relation) : String :=
  match r.kind with
  | .comparison c => c.text
  | _ => if r.set = ContextSet.cqlName then r.value else r.set ++ "." ++ r.value

theorem Relation.text_eq (r : Relation) : r.text = r.head ++ Modifier.texts r.modifiers := rfl

/-- Whether a relation is a comparison. -/
def RelationKind.Compares (kind : RelationKind) : Prop := ∃ c, kind = .comparison c

instance : DecidablePred RelationKind.Compares
  | .comparison c => isTrue ⟨c, rfl⟩
  | .all | .any | .named _ => isFalse nofun

/-- Whether what is written for a relation is a comparison or one word, which is no keyword, and its
    modifiers are written as they can be read. -/
def Relation.Worded (punctuation : String) (r : Relation) : Prop :=
  (r.kind.Compares ∨ IsWord punctuation r.head ∧ r.head ∉ keywords) ∧
    ∀ m ∈ r.modifiers, m.Worded punctuation

instance (r : Relation) : Decidable (r.Worded punctuation) := inferInstanceAs (Decidable (_ ∧ _))

/-- Folding does nothing to lower case. -/
theorem fold_of_isLower (lower : ∀ c ∈ s.toList, IsLower c) : Text.fold s = s := by
  have same : ∀ c ∈ s.toList, c.toLower = c := fun c hc => toLower_of_isLower (lower c hc)
  rw [Text.fold, List.map_congr_left same, List.map_id', String.ofList_toList]

/-- A word in lower case that is no keyword ends no term, so it is taken for the relation behind an
    index. -/
theorem endsTerm_word (lower : ∀ c ∈ s.toList, IsLower c) (other : s ∉ keywords) :
    endsTerm (some (.word s)) = false := by
  have fold := fold_of_isLower lower
  simp only [keywords, List.mem_cons, List.not_mem_nil, or_false, not_or] at other
  obtain ⟨not_and, not_or, not_not, not_prox, not_sort⟩ := other
  have fold_sort : Text.fold sortWord = "sortby" := by decide
  simp [endsTerm, Token.isBoolean, Token.isWord, Connective.ofWord?, Text.sameFold, fold, fold_sort,
    Connective.text, List.find?, not_sort, Ne.symm not_and, Ne.symm not_or, Ne.symm not_not,
    Ne.symm not_prox, beq_false_of_ne]

theorem Relation.modifiers_ofWord (word : String) (ms : List Modifier) :
    (ofWord word ms).modifiers = ms := by
  rw [ofWord]
  split <;> rfl

/-- A relation without a dot is of the set `cql`. -/
theorem ofWord_of_not_mem (free : '.' ∉ s.toList) (ms : List Modifier) :
    Relation.ofWord s ms = { kind := Relation.kindOf ContextSet.cqlName s, modifiers := ms } := by
  have all : ∀ c ∈ s.toList, decide (c ≠ '.') = true := fun c hc => by
    simpa using fun h : c = '.' => free (h ▸ hc)
  rw [Relation.ofWord, List.span_eq_takeWhile_dropWhile, List.dropWhile_eq_nil_iff.2 all]

/-- A relation with a dot is of the set in front of it. -/
theorem ofWord_of_split (chars : s.toList = set ++ '.' :: base) (free : '.' ∉ set)
    (ms : List Modifier) : Relation.ofWord s ms =
      ⟨String.ofList set, Relation.kindOf (String.ofList set) (String.ofList base), ms⟩ := by
  have all : ∀ c ∈ set, decide (c ≠ '.') = true := fun c hc => by
    simpa using fun h : c = '.' => free (h ▸ hc)
  rw [Relation.ofWord, List.span_eq_takeWhile_dropWhile, chars, List.takeWhile_append_of_pos all,
    List.dropWhile_append_of_pos all]
  simp

/-- The set `cql` is not printed, any other is. -/
theorem Relation.head_kindOf (set word : String) (ms : List Modifier) :
    (⟨set, kindOf set word, ms⟩ : Relation).head =
      if set = ContextSet.cqlName then word else set ++ "." ++ word := by
  unfold kindOf
  split
  next all =>
    obtain ⟨rfl, rfl⟩ := all
    rfl
  next =>
    split
    next any =>
      obtain ⟨rfl, rfl⟩ := any
      rfl
    next => rfl

/-- A word is never a comparison. -/
theorem Relation.not_compares_kindOf (set word : String) : ¬(kindOf set word).Compares := by
  unfold kindOf
  split
  · nofun
  · split <;> nofun

theorem Relation.not_compares_ofWord (word : String) (ms : List Modifier) :
    ¬(ofWord word ms).kind.Compares := by
  rw [ofWord]
  split <;> exact not_compares_kindOf _ _

/-- A plain relation of the set `cql` is a word that is no keyword. -/
theorem Relation.plain_kindOf {word : String} {ms : List Modifier}
    (plain : (⟨ContextSet.cqlName, kindOf ContextSet.cqlName word, ms⟩ : Relation).Plain) :
    word ≠ "" ∧ word ∉ keywords := by
  have named := plain rfl
  unfold kindOf at named
  split at named
  next all =>
    obtain ⟨-, rfl⟩ := all
    decide
  next =>
    split at named
    next any =>
      obtain ⟨-, rfl⟩ := any
      decide
    next => exact named word rfl

/-- What stands behind a front without backslashes keeps its escapes. -/
theorem Lexemes.Escaped.of_append {admits : Char → Bool} {cs ds : List Char}
    (h : Escaped admits (cs ++ ds)) (plain : '\\' ∉ cs) : Escaped admits ds := by
  induction cs with
  | nil => exact h
  | cons c cs ih =>
    rw [List.mem_cons, not_or] at plain
    generalize whole : c :: cs ++ ds = all at h
    cases h with
    | nil => simp at whole
    | pair _ => exact absurd (List.cons.inj whole).1.symm plain.1
    | char _ _ later =>
      obtain ⟨-, rfl⟩ := List.cons.inj whole
      exact ih later plain.2

/-- A relation is written as a text that names it, also where its set is left out. -/
theorem Relation.ofWord_head {name : QualifiedName} (split : splitName s = .ok name)
    (lower : ∀ c ∈ s.toList, IsLower c) (ms : List Modifier) :
    (∀ c ∈ (ofWord s ms).head.toList, IsLower c) ∧ (∃ name, splitName (ofWord s ms).head = .ok name) ∧
      ofWord (ofWord s ms).head ms = ofWord s ms := by
  rcases splitName_eq_ok.1 split with ⟨free, rfl⟩ | ⟨set, base, chars, -, free, free', rfl⟩
  · rw [ofWord_of_not_mem free, head_kindOf, if_pos rfl]
    exact ⟨lower, ⟨_, split⟩, ofWord_of_not_mem free ms⟩
  · rw [ofWord_of_split chars free, head_kindOf]
    by_cases own : String.ofList set = ContextSet.cqlName
    · have free' : '.' ∉ (String.ofList base).toList := by simpa using free'
      rw [chars, List.forall_mem_append, List.forall_mem_cons] at lower
      rw [if_pos own, own]
      exact ⟨by simpa using lower.2.2, ⟨_, splitName_eq_ok.2 (.inl ⟨free', rfl⟩)⟩,
        ofWord_of_not_mem free' ms⟩
    · have whole : String.ofList set ++ "." ++ String.ofList base = s := by
        apply String.toList_injective
        simp [chars]
      rw [if_neg own, whole]
      exact ⟨lower, ⟨_, split⟩, ofWord_of_split chars free ms⟩

/-- A word that names a relation is a word without the relation's own set, too, and no keyword unless
    it is one then. -/
theorem Relation.isWord_head {name : QualifiedName} {ms : List Modifier}
    (split : splitName s = .ok name) (word : IsWord punctuation s) (plain : (ofWord s ms).Plain) :
    IsWord punctuation (ofWord s ms).head ∧ (ofWord s ms).head ∉ keywords := by
  rcases splitName_eq_ok.1 split with ⟨free, rfl⟩ | ⟨set, base, chars, -, free, free', rfl⟩
  · rw [ofWord_of_not_mem free] at plain ⊢
    rw [head_kindOf, if_pos rfl]
    exact ⟨word, (plain_kindOf plain).2⟩
  · rw [ofWord_of_split chars free] at plain ⊢
    rw [head_kindOf]
    by_cases own : String.ofList set = ContextSet.cqlName
    -- The set `cql` is left out of the text; what follows its dot is a word of its own.
    · rw [own] at plain
      rw [if_pos own]
      obtain ⟨some_char, other⟩ := plain_kindOf plain
      have letters : set = ['c', 'q', 'l'] := by
        simpa [ContextSet.cqlName] using congrArg String.toList own
      have escaped := word.2
      rw [chars, letters, List.append_cons] at escaped
      exact ⟨⟨some_char, by simpa using escaped.of_append (by decide)⟩, other⟩
    · have whole : String.ofList set ++ "." ++ String.ofList base = s := by
        apply String.toList_injective
        simp [chars]
      have other : s ∉ keywords := by
        intro mem
        -- With its set in front the word has a dot, which no keyword has.
        have dotless : ∀ k ∈ keywords, '.' ∉ k.toList := by decide
        exact dotless s mem (by simp [chars])
      rw [if_neg own, whole]
      exact ⟨word, other⟩

/-- The relation of a clause that was read was read as well, or is the one that a term alone has. -/
theorem Clause.sourced_relation {c : Clause} (equals : T (.comparison .eq))
    (sourced : Sourced T (ClauseSpelling rules) c) : Sourced T RelationSpelling c.relation := by
  obtain ⟨u, next, tokens, spelled⟩ := sourced
  cases spelled with
  | full _ _ related _ => exact ⟨_, _, fun t ht => tokens t (by simp [ht]), related⟩
  | alone _ _ => exact ⟨[.comparison .eq], none, by simpa using equals, .comparison (.nil rfl)⟩

section

variable [Harmless punctuation]

/-- A token with its modifiers behind it. -/
theorem prints_with_modifiers (ht : t.Alone punctuation) {ms : List Modifier}
    (h : Prints punctuation (Modifier.texts ms) u) :
    Prints punctuation (t.text ++ Modifier.texts ms) (t :: u) :=
  ht.prints.append h (Modifier.head_texts ms)

/-- What is written for a relation that was read. -/
theorem legible_relation {r : Relation} (sourced : Sourced (Token.Lexed punctuation) RelationSpelling r)
    (worded : r.Worded punctuation) :
    Legible punctuation RelationSpelling (fun t => !endsTerm (some t)) Token.modifies r.text r := by
  obtain ⟨u, next, lexed, spelled⟩ := sourced
  obtain ⟨here, refining⟩ := worded
  cases spelled with
  | @comparison c u next ms refined =>
    obtain ⟨u', prints, spells⟩ :=
      exists_modifiers_written refined (fun t ht => lexed t (List.mem_cons_of_mem _ ht)) refining
    have compared : (Token.comparison c).Alone punctuation := ⟨takes_comparator c (by simp), rfl⟩
    exact ⟨.comparison c :: u', prints_with_modifiers compared prints, rfl, fun next ends =>
      .comparison (spells next ends)⟩
  | @word s name u next ms split refined =>
    rw [Relation.modifiers_ofWord] at refining
    obtain ⟨u', prints, spells⟩ :=
      exists_modifiers_written refined (fun t ht => lexed t (List.mem_cons_of_mem _ ht)) refining
    have lower : ∀ c ∈ (lowercase s).toList, IsLower c := by
      rw [toList_lowercase]
      exact fun c => isLower_of_mem_lowerAfter
    obtain ⟨lower', ⟨name', split'⟩, same⟩ := Relation.ofWord_head split lower ms
    obtain ⟨word, other⟩ := here.resolve_left (Relation.not_compares_ofWord _ _)
    have text := Relation.text_eq (.ofWord (lowercase s) ms)
    rw [Relation.modifiers_ofWord] at text
    generalize (Relation.ofWord (lowercase s) ms).head = s' at *
    have fixed : lowercase s' = s' := by
      rw [lowercase, lowerAfter_of_isLower [] lower', String.ofList_toList]
    refine ⟨.word s' :: u', ?_, ?_, fun next ends => ?_⟩
    · rw [text]
      exact prints_with_modifiers (Token.alone_word word.1 word.2) prints
    · simpa using endsTerm_word lower' other
    · have spelled := RelationSpelling.word (s := s') (by rwa [fixed]) (spells next ends)
      rwa [fixed, same] at spelled

end

/-! ### Booleans and sort keys -/

/-- Whether the modifiers of a boolean are written as they can be read. -/
def Boolean.Worded (punctuation : String) (b : Boolean) : Prop :=
  ∀ m ∈ b.modifiers, m.Worded punctuation

instance (punctuation : String) (b : Boolean) : Decidable (b.Worded punctuation) :=
  inferInstanceAs (Decidable (∀ m ∈ _, _))

/-- Whether the name and the modifiers of an index are written as they can be read. -/
def Index.Worded (punctuation : String) (i : Index) : Prop :=
  i.name.Clear punctuation ∧ ∀ m ∈ i.modifiers, m.Worded punctuation

instance (punctuation : String) (i : Index) : Decidable (i.Worded punctuation) :=
  inferInstanceAs (Decidable (_ ∧ _))

/-- Whether a sort key is written as it can be read at the end of a text. -/
def Index.WordedLast (punctuation : String) (i : Index) : Prop :=
  i.name.Clear punctuation ∧ Modifier.WordedLast punctuation i.modifiers

instance (punctuation : String) (i : Index) : Decidable (i.WordedLast punctuation) :=
  inferInstanceAs (Decidable (_ ∧ _))

theorem Index.Worded.last {i : Index} (h : i.Worded punctuation) : i.WordedLast punctuation :=
  ⟨h.1, .of_forall h.2 fun _ => And.left⟩

section

variable [Harmless punctuation]

/-- A boolean is read back with its modifiers. -/
theorem legible_boolean {b : Boolean} (sourced : Sourced (Token.Lexed punctuation) BooleanSpelling b)
    (worded : b.Worded punctuation) :
    Legible punctuation BooleanSpelling Token.isBoolean Token.modifies b.text b := by
  obtain ⟨u, next, lexed, spelled⟩ := sourced
  cases spelled with
  | @word s c u next ms joins refined =>
    obtain ⟨u', prints, spells⟩ :=
      exists_modifiers_written refined (fun t ht => lexed t (List.mem_cons_of_mem _ ht)) worded
    have joins' : Connective.ofWord? c.text = some c := by
      cases c <;> decide
    have joint : (Token.word c.text).Alone punctuation := Token.alone_of_ofWord? joins'
    exact ⟨.word c.text :: u', prints_with_modifiers joint prints, by simp [Token.isBoolean, joins'],
      fun next ends => .word joins' (spells next ends)⟩

/-- A sort key is read back with its modifiers, unless what follows would be one more of them. -/
theorem legible_key {k : Index} (quotes : rules.rejectQuotedName = false)
    (sourced : Sourced (Token.Lexed punctuation) (KeySpelling rules) k) (worded : k.Worded punctuation) :
    Legible punctuation (KeySpelling rules) Token.isText Token.modifies k.text k := by
  obtain ⟨u, next, lexed, spelled⟩ := sourced
  obtain ⟨clear, refining⟩ := worded
  cases spelled with
  | @key t name u next ms named refined =>
    obtain ⟨u', prints, spells⟩ :=
      exists_modifiers_written refined (fun t ht => lexed t (List.mem_cons_of_mem _ ht)) refining
    have prints := prints_with_modifiers clear.alone prints
    rw [name.text_token] at prints
    exact ⟨name.token :: u', prints, by simp [name.isText_token], fun next ends =>
      .key (name.named_token quotes named.split_full) (spells next ends)⟩

/-- The last key may end with an open value. -/
theorem legible_key_last {k : Index} (quotes : rules.rejectQuotedName = false)
    (sourced : Sourced (Token.Lexed punctuation) (KeySpelling rules) k)
    (worded : k.WordedLast punctuation) :
    LegibleLast punctuation (KeySpelling rules) Token.isText k.text k := by
  obtain ⟨u, next, lexed, spelled⟩ := sourced
  obtain ⟨clear, refining⟩ := worded
  cases spelled with
  | @key t name u next ms named refined =>
    obtain ⟨u', lexes, spelled⟩ :=
      exists_modifiers_last refined (fun t ht => lexed t (List.mem_cons_of_mem _ ht)) refining
    have whole := clear.alone.prints.lexes_append lexes (Modifier.head_texts ms)
    rw [name.text_token] at whole
    exact ⟨name.token :: u', whole, by simp [name.isText_token],
      .key (name.named_token quotes named.split_full) spelled⟩

theorem Index.head_spaced (k : Index) : ∃ cs, (" " ++ k.text).toList = ' ' :: cs :=
  ⟨k.text.toList, by simp⟩

/-- Sort keys at the end of a text, each behind a space. -/
theorem exists_keys_last {ks : List Index} (quotes : rules.rejectQuotedName = false)
    (sourced : ∀ k ∈ ks, Sourced (Token.Lexed punctuation) (KeySpelling rules) k)
    (worded : UpToLast (·.Worded punctuation) (·.WordedLast punctuation) ks) :
    ∃ u, Lexes punctuation (String.join (ks.map fun k => " " ++ k.text)).toList u ∧
      KeysSpelling rules u none ks := by
  have legible : UpToLast
      (fun k => Legible punctuation (KeySpelling rules) Token.isText Token.modifies (" " ++ k.text) k)
      (fun k => LegibleLast punctuation (KeySpelling rules) Token.isText (" " ++ k.text) k) ks := by
    refine worded.imp (fun k hk worded => ?_) (fun k hk worded => ?_)
    · obtain ⟨u, prints, spells⟩ := legible_key quotes (sourced k hk) worded
      exact ⟨u, prints.space, spells⟩
    · obtain ⟨u, lexes, spelled⟩ := legible_key_last quotes (sourced k hk) worded
      refine ⟨u, ?_, spelled⟩
      rw [String.toList_append]
      exact lexes.blank_append (List.all_eq_true.1 (by decide))
  have apart (t : Token) (ht : t.isText = true) : t.modifies = false := by
    cases t <;> simp_all [Token.isText, Token.modifies, Token.isComparison]
  obtain ⟨u, lexes, -, spelled⟩ :=
    exists_sequence_last (by decide) Index.head_spaced apart legible
  exact ⟨u, lexes, spelled⟩

/-! ### Clauses -/

/-- A printed name is a word or a quoted text, and goes on with no modifier. -/
theorem QualifiedName.modifies_token (n : QualifiedName) : n.token.modifies = false := by
  rw [token]
  split <;> rfl

/-- Whether what is written for the index and the relation of a clause is read as these. -/
def Clause.Worded (punctuation : String) (c : Clause) : Prop :=
  c.index.Worded punctuation ∧ c.relation.Worded punctuation

instance (punctuation : String) (c : Clause) : Decidable (c.Worded punctuation) :=
  inferInstanceAs (Decidable (_ ∧ _))

/-- A clause is read back if its index, relation and term are, and the relation is not taken for the
    end of a term. -/
theorem legible_clause_of {name : QualifiedName} {r : Relation} {term : Term}
    (named : NameSpelling rules name.token name) (front : name.token.Alone punctuation)
    (related : Legible punctuation RelationSpelling (fun t => !endsTerm (some t)) Token.modifies r.text r)
    (alone : w.Alone punctuation) (searched : termOf rules (some w) = .ok term) :
    Legible punctuation (ClauseSpelling rules) (fun t => !t.modifies) (fun _ => false)
      (Clause.text { index := { name }, relation := r, term })
      { index := { name }, relation := r, term } := by
  obtain ⟨u, prints, head, spells⟩ := related
  obtain ⟨text, other⟩ := text_of_termOf searched
  refine ⟨name.token :: (u ++ [w]), ?_, by simp [name.modifies_token], fun next _ => ?_⟩
  · have front := front.prints
    have back := alone.prints
    rw [name.text_token] at front
    rw [text] at back
    simpa [Clause.text, Index.text, Modifier.texts] using (front.spaced prints).spaced back
  · refine .full named (fun x hx => ?_) (spells (some w) other) searched
    rw [hx] at head
    simpa using head

/-- What is written for a clause that was read. A term that stood alone gets the index and the
    relation that it stands for. -/
theorem legible_clause {c : Clause} (quotes : rules.rejectQuotedName = false)
    (sourced : Sourced (Token.Lexed punctuation) (ClauseSpelling rules) c)
    (worded : c.Worded punctuation) :
    Legible punctuation (ClauseSpelling rules) (fun t => !t.modifies) (fun _ => false) c.text c := by
  obtain ⟨⟨clear, -⟩, worded⟩ := worded
  have related := legible_relation (Clause.sourced_relation ⟨['='], [], .eq⟩ sourced) worded
  obtain ⟨u, next, lexed, spelled⟩ := sourced
  cases spelled with
  | @full t name u r w term next named goesOn _ searched =>
    have lexed : w.Lexed punctuation := lexed w (by simp)
    exact legible_clause_of (name.named_token quotes named.split_full) clear.alone related
      (lexed.alone (isOpen_of_termOf lexed searched)) searched
  | @alone w term next ends searched =>
    have split : splitName (QualifiedName.full ⟨ContextSet.cqlName, serverChoice⟩) =
        .ok ⟨ContextSet.cqlName, serverChoice⟩ := by
      decide
    have lexed : w.Lexed punctuation := lexed w (by simp)
    exact legible_clause_of (QualifiedName.named_token quotes split) clear.alone related
      (lexed.alone (isOpen_of_termOf lexed searched)) searched

/-! ### Declarations -/

/-- A quoted identifier has escaped quotes only, and an unquoted one is made of word characters and
    slashes. -/
theorem inside_of_identifier {i : String} (h : IdentifierSpelling rules u next i)
    (alone : ∀ t ∈ u, t.Alone punctuation) : Escaped isInside i.toList := by
  have inside {s : String} (h : (Token.word s).Alone punctuation) : Escaped isInside s.toList :=
    h.word.2.mono fun _ => isInside_of_isWordChar
  have slash {cs : List Char} (h : Escaped isInside cs) : Escaped isInside ('/' :: cs) :=
    .char (by decide) rfl h
  cases h with
  | @quoted s =>
    obtain ⟨body, rfl, escaped⟩ := (alone (.quoted s) List.mem_cons_self).quoted
    rwa [Text.unquote_quote]
  | @path s u next segments path =>
    rw [List.forall_mem_cons] at alone
    rw [String.toList_append]
    refine (inside alone.1).append ?_
    replace alone := alone.2
    induction path with
    | nil => exact .nil
    | @cons u v next segment segments first _ ih =>
      rw [List.forall_mem_append] at alone
      rw [String.join_cons, String.toList_append]
      refine Escaped.append ?_ (ih alone.2)
      cases first with
      | slash => exact slash .nil
      | word =>
        rw [String.toList_append]
        exact slash (inside (alone.1 _ (by simp)))

/-- What is written for a declaration that was read. -/
theorem legible_declaration {d : String × String} (quotes : rules.rejectQuotedName = false)
    (sourced : Sourced (Token.Lexed punctuation) (DeclarationSpelling rules) d)
    (worded : d.1 = "" ∨ IsWord punctuation d.1) (inside : Escaped isInside d.2.toList) :
    Legible punctuation (DeclarationSpelling rules) (· == .comparison .gt) (· == .comparison .eq)
      (declarationText d.1 d.2) d := by
  obtain ⟨u, next, lexed, spelled⟩ := sourced
  -- Whatever form the identifier was read in, it is written in quotes.
  have bound' (i : String) (next : Option Token) :
      IdentifierSpelling rules [.quoted (Text.quote i)] next i := by
    have spelled := @IdentifierSpelling.quoted rules (Text.quote i) next quotes
    rwa [Text.unquote_quote] at spelled
  cases spelled with
  | @named s u next i bound =>
    have some_char : lowercase s ≠ "" := by
      have lexed : (Token.word s).Lexed punctuation := lexed _ (by simp)
      exact lowercase_ne_empty lexed.text_ne_empty
    have word := worded.resolve_left some_char
    refine ⟨[.comparison .gt, .word (lowercase s), .comparison .eq, .quoted (Text.quote i)], ?_, rfl,
      fun next _ => ?_⟩
    · simpa [declarationText, some_char] using prints_named (Token.alone_word word.1 word.2) inside
    · have spelled := DeclarationSpelling.named (s := lowercase s) (bound' i next)
      rwa [lowercase_lowercase] at spelled
  | @unnamed u next i bound nameless =>
    refine ⟨[.comparison .gt, .quoted (Text.quote i)], prints_unnamed inside, rfl,
      fun next ends => ?_⟩
    · refine .unnamed (bound' i next) ?_
      cases next with
      | none => simp
      | some t => simpa using ends

end

end ContextualQuery
