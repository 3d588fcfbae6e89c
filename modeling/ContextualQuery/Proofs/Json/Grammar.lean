import ContextualQuery.Proofs.Json.Literals
import ContextualQuery.Proofs.Json.Numerals

/-! The grammar of JSON text.

    Which texts are texts of a document is said here without reading them (`Document.Spells`), and the
    document that a text spells is the one that is read from it (`ofText_of_isTextOf`). A value is read
    with any text behind it that does not go on with a number, so a list of values is read one value
    after the other. -/

namespace ContextualQuery.Json

open Document

/-- A text with white space around it. -/
def Around (text padded : List Char) : Prop :=
  ∃ before after, (∀ c ∈ before, isGap c = true) ∧ (∀ c ∈ after, isGap c = true) ∧
    padded = before ++ (text ++ after)

/-- The values with a fixed spelling. -/
def words : List (Scalar × String) := [(.null, "null"), (.bool true, "true"), (.bool false, "false")]

/-- What the inside of a string literal stands for. Halves of pairs of surrogates stand for nothing. -/
def textOf (inside : List Char) : Except Defect String :=
  (readText (inside ++ ['"'])).map String.ofList

/-- The texts of a name, up to the colon behind it. -/
inductive SpellsName : Except Defect String → List Char → Prop
  | mk {inside name padded} (literal : IsLiteral inside)
      (name_eq : name = '"' :: (inside ++ ['"'])) (around : Around name padded) :
      SpellsName (textOf inside) (padded ++ [':'])

mutual

/-- The texts of a document. -/
inductive Document.Spells : Document → List Char → Prop
  | word {value text} (known : (value, text) ∈ words) :
      Document.Spells (.scalar (.ok value) none) text.toList
  | number {numeral text} (spells : Numeral.Spells numeral text) :
      Document.Spells (.scalar (numeral.value.map .number) none) text
  | string {inside} (literal : IsLiteral inside) :
      Document.Spells (.scalar ((textOf inside).map .string) none) ('"' :: (inside ++ ['"']))
  | emptyArray {gap} (blank : ∀ c ∈ gap, isGap c = true) :
      Document.Spells (.array [] none) ('[' :: (gap ++ [']']))
  | array {items text} (spells : SpellsItems items text) :
      Document.Spells (.array items none) ('[' :: (text ++ [']']))
  | emptyObject {gap} (blank : ∀ c ∈ gap, isGap c = true) :
      Document.Spells (.object [] none) ('\x7b' :: (gap ++ ['\x7d']))
  | object {members text} (spells : SpellsMembers members text) :
      Document.Spells (.object members none) ('\x7b' :: (text ++ ['\x7d']))

/-- The texts of one item or more. -/
inductive SpellsItems : List Document → List Char → Prop
  | last {item text padded} (spells : Document.Spells item text) (around : Around text padded) :
      SpellsItems [item] padded
  | cons {item text padded items rest} (spells : Document.Spells item text)
      (around : Around text padded) (later : SpellsItems items rest) :
      SpellsItems (item :: items) (padded ++ ',' :: rest)

/-- The texts of one member or more. -/
inductive SpellsMembers : List (Except Defect String × Document) → List Char → Prop
  | last {name head value text padded} (named : SpellsName name head)
      (spells : Document.Spells value text) (around : Around text padded) :
      SpellsMembers [(name, value)] (head ++ padded)
  | cons {name head value text padded members rest} (named : SpellsName name head)
      (spells : Document.Spells value text) (around : Around text padded)
      (later : SpellsMembers members rest) :
      SpellsMembers ((name, value) :: members) (head ++ (padded ++ ',' :: rest))

end

/-- Whether a whole text is one of a document. -/
def Document.IsTextOf (d : Document) (s : String) : Prop :=
  ∃ text, d.Spells text ∧ Around text s.toList

variable {n : Nat} {c : Char} {b cs text padded rest : List Char}

/-! ### What stands around a value -/

/-- White space ends a numeral. -/
theorem ends_of_isGap (h : isGap c = true) : Ends (c :: cs) := by
  intro d first
  obtain rfl := Option.some.inj first
  simp only [isGap, List.contains_eq_mem, List.mem_cons, List.not_mem_nil, or_false,
    decide_eq_true_eq] at h
  rcases h with rfl | rfl | rfl | rfl <;> decide

/-- No number goes on behind a gap if none does where the gap ends. -/
theorem ends_append (gap : ∀ c ∈ b, isGap c = true) (ends : Ends cs) : Ends (b ++ cs) := by
  cases b with
  | nil => exact ends
  | cons c b => exact ends_of_isGap (gap c List.mem_cons_self)

theorem ne_of_isDigit {d : Char} (digit : c.isDigit = true) (other : d.isDigit = false) : c ≠ d := by
  rintro rfl
  exact absurd (digit.symm.trans other) (by simp)

/-- A digit is no white space. -/
theorem isGap_of_isDigit (digit : c.isDigit = true) : isGap c = false := by
  simp [isGap, ne_of_isDigit digit]

/-! ### Reading what is spelled -/

/-- A numeral starts with a digit or a sign. -/
theorem exists_of_spellsNumeral {numeral : Numeral} (spells : numeral.Spells text) :
    ∃ c cs, text = c :: cs ∧ (c = '-' ∨ c.isDigit = true) := by
  obtain @⟨_, whole, _, _, _, _, sign, signed, digits, -, -, -⟩ := spells
  obtain ⟨d, ds, rfl⟩ := List.exists_cons_of_ne_nil digits.some_digit
  simp only [List.mem_cons, Prod.mk.injEq, List.not_mem_nil, or_false] at signed
  obtain ⟨-, rfl⟩ | ⟨-, rfl⟩ := signed
  · exact ⟨d, _, rfl, .inr (digits.digits d List.mem_cons_self)⟩
  · exact ⟨'-', _, rfl, .inl rfl⟩

/-- A value starts with a character that is no white space and closes no list. -/
theorem exists_of_spells {d : Document} (spells : d.Spells text) :
    ∃ c cs, text = c :: cs ∧ isGap c = false ∧ c ≠ ']' := by
  cases spells with
  | word known =>
    simp only [words, List.mem_cons, Prod.mk.injEq, List.not_mem_nil, or_false] at known
    obtain ⟨-, rfl⟩ | ⟨-, rfl⟩ | ⟨-, rfl⟩ := known <;> simp [isGap]
  | number spells =>
    obtain ⟨c, cs, rfl, start⟩ := exists_of_spellsNumeral spells
    refine ⟨c, cs, rfl, ?_⟩
    obtain rfl | digit := start
    · decide
    · exact ⟨isGap_of_isDigit digit, ne_of_isDigit digit (by decide)⟩
  | _ => exact ⟨_, _, rfl, by decide⟩

/-- A word is read as what it stands for. -/
theorem scanValue_word {value : Scalar} {word : String} (known : (value, word) ∈ words) (n : Nat)
    (rest : List Char) :
    scanValue (n + 1) (word.toList ++ rest) = (.scalar (.ok value) none, some rest) := by
  simp only [words, List.mem_cons, Prod.mk.injEq, List.not_mem_nil, or_false] at known
  obtain ⟨rfl, rfl⟩ | ⟨rfl, rfl⟩ | ⟨rfl, rfl⟩ := known <;>
    simp [scanValue, dropBlank_cons, isGap, scanWord, expect]

/-- A numeral is read up to what ends it. -/
theorem scanValue_number {numeral : Numeral} (spells : numeral.Spells text) (ends : Ends rest)
    (n : Nat) :
    scanValue (n + 1) (text ++ rest) = (.scalar (numeral.value.map .number) none, some rest) := by
  rw [← scanNumber_append spells ends]
  obtain ⟨c, cs, rfl, start⟩ := exists_of_spellsNumeral spells
  obtain rfl | digit := start
  · rw [List.cons_append, scanValue, dropBlank_cons (by decide)]
    simp
  · have other {d : Char} (h : d.isDigit = false) : c ≠ d := ne_of_isDigit digit h
    rw [List.cons_append, scanValue, dropBlank_cons (isGap_of_isDigit digit)]
    split <;> simp_all

theorem map_textOf {inside : List Char} (literal : IsLiteral inside) (rest : List Char) :
    (textOf inside).map Scalar.string =
      (readText (inside ++ '"' :: rest)).map fun s => .string (String.ofList s) := by
  rw [textOf, readText_append literal rest]
  cases readText (inside ++ ['"']) <;> rfl

/-- A literal is read up to its closing quote. -/
theorem scanValue_string {inside : List Char} (literal : IsLiteral inside) (n : Nat)
    (rest : List Char) :
    scanValue (n + 1) ('"' :: (inside ++ '"' :: rest)) =
      (.scalar ((textOf inside).map .string) none, some rest) := by
  rw [scanValue, dropBlank_cons (by decide)]
  simp only [scanString, skipText_eq_ok.2 ⟨inside, literal, rfl⟩, map_textOf literal rest]

/-- An array is read from its first item on. -/
theorem scanValue_array {items : List Document} (gap : ∀ c ∈ b, isGap c = true)
    (visible : isGap c = false) (inside : c ≠ ']')
    (read : scanItems n (c :: cs) = (items, none, some rest)) :
    scanValue (n + 1) ('[' :: (b ++ c :: cs)) = (.array items none, some rest) := by
  rw [scanValue, dropBlank_cons (by decide)]
  simp only [dropBlank_append gap, dropBlank_cons visible]
  split
  next nothing => cases nothing
  next closed => exact absurd (List.cons.inj closed).1 inside
  next => rw [read]

theorem scanValue_object {members : List (Except Defect String × Document)}
    (gap : ∀ c ∈ b, isGap c = true) (read : scanMembers n ('"' :: cs) = (members, none, some rest)) :
    scanValue (n + 1) ('\x7b' :: (b ++ '"' :: cs)) = (.object members none, some rest) := by
  rw [scanValue, dropBlank_cons (by decide)]
  simp only [dropBlank_append gap, dropBlank_cons (c := '"') (by decide)]
  split
  next closed => exact absurd (List.cons.inj closed).1 (by decide)
  next => rw [read]

section
variable {item value : Document} {items : List Document} {name : Except Defect String}
  {members : List (Except Defect String × Document)} {head : List Char}

theorem scanItems_last (gap : ∀ c ∈ b, isGap c = true)
    (read : scanValue n cs = (item, some (b ++ ']' :: rest))) :
    scanItems (n + 1) cs = ([item], none, some rest) := by
  rw [scanItems, read]
  simp only [dropBlank_append gap, dropBlank_cons (c := ']') (by decide)]

/-- An item, a comma with white space around it, and more items. -/
theorem scanItems_comma {b' left : List Char} (gap : ∀ c ∈ b, isGap c = true)
    (gap' : ∀ c ∈ b', isGap c = true) (visible : isGap c = false) (inside : c ≠ ']')
    (read : scanValue n cs = (item, some (b ++ ',' :: (b' ++ c :: left))))
    (later : scanItems n (c :: left) = (items, none, some rest)) :
    scanItems (n + 1) cs = (item :: items, none, some rest) := by
  rw [scanItems, read]
  simp only [dropBlank_append gap, dropBlank_cons (c := ',') (by decide), dropBlank_append gap',
    dropBlank_cons visible]
  split
  next closed => exact absurd (List.cons.inj closed).1 inside
  next => rw [later]

/-- The last member is followed by the closing brace. -/
theorem scanMembers_last (named : SpellsName name head) (gap : ∀ c ∈ b, isGap c = true)
    (read : scanValue n cs = (value, some (b ++ '\x7d' :: rest))) :
    scanMembers (n + 1) (head ++ cs) = ([(name, value)], none, some rest) := by
  obtain ⟨literal, rfl, _, _, before, after, rfl⟩ := named
  simp only [List.append_assoc, List.cons_append, List.nil_append]
  rw [scanMembers, dropBlank_append before, dropBlank_cons (by decide)]
  simp only [skipText_eq_ok.2 ⟨_, literal, rfl⟩, readText_append literal, dropBlank_append after,
    dropBlank_cons (c := ':') (by decide), read, dropBlank_append gap,
    dropBlank_cons (c := '\x7d') (by decide), textOf]

/-- A member, a comma, and more members. -/
theorem scanMembers_comma {left : List Char} (named : SpellsName name head)
    (gap : ∀ c ∈ b, isGap c = true) (read : scanValue n cs = (value, some (b ++ ',' :: left)))
    (later : scanMembers n left = (members, none, some rest)) :
    scanMembers (n + 1) (head ++ cs) = ((name, value) :: members, none, some rest) := by
  obtain ⟨literal, rfl, _, _, before, after, rfl⟩ := named
  simp only [List.append_assoc, List.cons_append, List.nil_append]
  rw [scanMembers, dropBlank_append before, dropBlank_cons (by decide)]
  simp only [skipText_eq_ok.2 ⟨_, literal, rfl⟩, readText_append literal, dropBlank_append after,
    dropBlank_cons (c := ':') (by decide), read, dropBlank_append gap,
    dropBlank_cons (c := ',') (by decide), later, textOf]

end

/-- Items start with something that is neither white space nor a bracket. -/
theorem exists_of_spellsItems {items : List Document} (spells : SpellsItems items text) :
    ∃ b c cs, text = b ++ c :: cs ∧ (∀ c ∈ b, isGap c = true) ∧ isGap c = false ∧ c ≠ ']' := by
  cases spells with
  | last spells around =>
    obtain ⟨b, b', gap, -, rfl⟩ := around
    obtain ⟨c, cs, rfl, visible, inside⟩ := exists_of_spells spells
    exact ⟨b, c, cs ++ b', by simp, gap, visible, inside⟩
  | @cons _ _ _ _ later spells around =>
    obtain ⟨b, b', gap, -, rfl⟩ := around
    obtain ⟨c, cs, rfl, visible, inside⟩ := exists_of_spells spells
    exact ⟨b, c, cs ++ (b' ++ ',' :: later), by simp, gap, visible, inside⟩

/-- Members start with a quote. -/
theorem exists_of_spellsMembers {members : List (Except Defect String × Document)}
    (spells : SpellsMembers members text) :
    ∃ b cs, text = b ++ '"' :: cs ∧ ∀ c ∈ b, isGap c = true := by
  have named {name head} (named : SpellsName name head) (cs : List Char) :
      ∃ b cs', head ++ cs = b ++ '"' :: cs' ∧ ∀ c ∈ b, isGap c = true := by
    obtain @⟨inside, _, _, -, rfl, b, b', gap, -, rfl⟩ := named
    exact ⟨b, inside ++ '"' :: (b' ++ ':' :: cs), by simp, gap⟩
  cases spells with
  | last name => exact named name _
  | cons name => exact named name _

/-! ### Whole documents -/

/-- Whether a number of steps gives back all documents for whose texts it is enough. -/
def ReadsValues (n : Nat) : Prop :=
  ∀ {d : Document} {text : List Char}, d.Spells text → ∀ rest : List Char, Ends rest →
    2 * text.length ≤ n + 1 → scanValue n (text ++ rest) = (d, some rest)

/-- Whether it gives back the items of arrays, up to the bracket. -/
def ReadsItems (n : Nat) : Prop :=
  ∀ {items : List Document} {text : List Char}, SpellsItems items text → ∀ rest : List Char,
    2 * text.length ≤ n → scanItems n (text ++ ']' :: rest) = (items, none, some rest)

/-- Whether it gives back the members of objects, up to the bracket. -/
def ReadsMembers (n : Nat) : Prop :=
  ∀ {members : List (Except Defect String × Document)} {text : List Char},
    SpellsMembers members text → ∀ rest : List Char, 2 * text.length ≤ n →
      scanMembers n (text ++ '\x7d' :: rest) = (members, none, some rest)

/-- One case for each kind of document. -/
theorem readsValues_succ (readsItems : ReadsItems n) (readsMembers : ReadsMembers n) :
    ReadsValues (n + 1) := by
  intro d text spells rest ends short
  cases spells with
  | word known => exact scanValue_word known n rest
  | number spells => exact scanValue_number spells ends n
  | string literal => simpa using scanValue_string literal n rest
  | emptyArray blank =>
    simp [scanValue, dropBlank_cons, isGap, dropBlank_append blank]
  | emptyObject blank =>
    simp [scanValue, dropBlank_cons, isGap, dropBlank_append blank]
  | array spells =>
    simp only [List.length_cons, List.length_append, List.length_nil] at short
    have read := readsItems spells rest (by omega)
    obtain ⟨b, c, cs, rfl, gap, visible, inside⟩ := exists_of_spellsItems spells
    rw [List.append_assoc, scanItems_append gap, List.cons_append] at read
    simpa using scanValue_array gap visible inside read
  | object spells =>
    simp only [List.length_cons, List.length_append, List.length_nil] at short
    have read := readsMembers spells rest (by omega)
    obtain ⟨b, cs, rfl, gap⟩ := exists_of_spellsMembers spells
    rw [List.append_assoc, scanMembers_append gap, List.cons_append] at read
    simpa using scanValue_object gap read

theorem readsItems_succ (readsValues : ReadsValues n) (readsItems : ReadsItems n) :
    ReadsItems (n + 1) := by
  intro items text spells rest short
  cases spells with
  | last spells around =>
    obtain ⟨b, b', gap, gap', rfl⟩ := around
    simp only [List.length_append] at short
    have ends : Ends (b' ++ ']' :: rest) := ends_append gap' (by simp [Ends])
    have read := readsValues spells _ ends (by omega)
    simp only [List.append_assoc]
    exact scanItems_last gap' (by rw [scanValue_append gap, read])
  | cons spells around later =>
    obtain ⟨b, b', gap, gap', rfl⟩ := around
    simp only [List.length_append, List.length_cons] at short
    obtain ⟨b'', c, cs, rfl, gap'', visible, inside⟩ := exists_of_spellsItems later
    have ends : Ends (b' ++ ',' :: (b'' ++ c :: (cs ++ ']' :: rest))) :=
      ends_append gap' (by simp [Ends])
    have read := readsValues spells _ ends (by omega)
    have read' := readsItems later rest (by omega)
    rw [List.append_assoc, scanItems_append gap'', List.cons_append] at read'
    simp only [List.append_assoc, List.cons_append]
    exact scanItems_comma gap' gap'' visible inside (by rw [scanValue_append gap, read]) read'

/-- By cases on whether another member follows. -/
theorem readsMembers_succ (readsValues : ReadsValues n) (readsMembers : ReadsMembers n) :
    ReadsMembers (n + 1) := by
  intro members text spells rest short
  cases spells with
  | last named spells around =>
    obtain ⟨b, b', gap, gap', rfl⟩ := around
    simp only [List.length_append] at short
    have ends : Ends (b' ++ '\x7d' :: rest) := ends_append gap' (by simp [Ends])
    have read := readsValues spells _ ends (by omega)
    simp only [List.append_assoc]
    exact scanMembers_last named gap' (by rw [scanValue_append gap, read])
  | @cons _ _ _ _ _ _ later named spells around members =>
    obtain ⟨b, b', gap, gap', rfl⟩ := around
    simp only [List.length_append, List.length_cons] at short
    have ends : Ends (b' ++ ',' :: (later ++ '\x7d' :: rest)) := ends_append gap' (by simp [Ends])
    have read := readsValues spells _ ends (by omega)
    have read' := readsMembers members rest (by omega)
    simp only [List.append_assoc, List.cons_append]
    exact scanMembers_comma named gap' (by rw [scanValue_append gap, read]) read'

/-- By induction on how many may be read, for values, items and members at once. -/
theorem reads (n : Nat) : ReadsValues n ∧ ReadsItems n ∧ ReadsMembers n := by
  induction n with
  | zero =>
    -- No text is so short.
    refine ⟨fun spells _ _ short => ?_, fun spells _ short => ?_, fun spells _ short => ?_⟩
    · obtain ⟨c, cs, rfl, -⟩ := exists_of_spells spells
      rw [List.length_cons] at short
      omega
    · obtain ⟨b, c, cs, rfl, -⟩ := exists_of_spellsItems spells
      simp at short
    · obtain ⟨b, cs, rfl, -⟩ := exists_of_spellsMembers spells
      simp at short
  | succ n ih =>
    obtain ⟨values, items, members⟩ := ih
    exact ⟨readsValues_succ items members, readsItems_succ values items,
      readsMembers_succ values members⟩

/-- The document that a text spells is the one that is read. -/
theorem ofText_of_isTextOf {d : Document} {s : String} (h : d.IsTextOf s) :
    Document.ofText s = (d, none) := by
  obtain ⟨text, spells, b, b', gap, gap', whole⟩ := h
  have blank : dropBlank b' = [] := by simpa [dropBlank] using dropBlank_append gap' []
  have ends : Ends b' := by simpa using @ends_append b' [] gap' (by simp [Ends])
  have length := congrArg List.length whole
  simp only [List.length_append] at length
  have read := (reads (2 * s.toList.length + 2)).1 spells b' ends (by omega)
  rw [← scanValue_append gap, ← whole] at read
  rw [Document.ofText, read]
  simp only [blank, List.isEmpty_nil, if_true]

end ContextualQuery.Json
