import ContextualQuery.Proofs.Json.Grammar

/-! What is read of a text is what the text spells.

    Where a text is none of any document, the document that is read from it has a defect that shows both
    in reading it and in passing over it (`Document.Breaks`). So nobody takes such a document for a sound
    one: a text is one of the document that is read from it, or that document breaks, or something stands
    behind it (`isTextOf_of_ofText`). -/

namespace ContextualQuery.Json

open Document

variable {n : Nat} {c : Char} {b cs text padded rest : List Char}

/-! ### Passing over -/

mutual

/-- What is spelled can be passed over. -/
theorem defect?_of_spells : ∀ {d : Document} {text : List Char}, d.Spells text → d.defect? = none
  | _, _, .word _ => rfl
  | _, _, .number _ => rfl
  | _, _, .string _ => rfl
  | _, _, .emptyArray _ => rfl
  | _, _, .emptyObject _ => rfl
  | _, _, .array spells => by rw [defect?, defectOfItems?_of_spells spells, Option.none_or]
  | _, _, .object spells => by rw [defect?, defectOfMembers?_of_spells spells, Option.none_or]

theorem defectOfItems?_of_spells : ∀ {items : List Document} {text : List Char},
    SpellsItems items text → defectOfItems? items = none
  | _, _, .last spells _ => by
    rw [defectOfItems?, defect?_of_spells spells, Option.none_or, defectOfItems?]
  | _, _, .cons spells _ later => by
    rw [defectOfItems?, defect?_of_spells spells, Option.none_or, defectOfItems?_of_spells later]

theorem defectOfMembers?_of_spells : ∀ {members : List (Except Defect String × Document)}
    {text : List Char}, SpellsMembers members text → defectOfMembers? members = none
  | _, _, .last _ spells _ => by
    rw [defectOfMembers?, defect?_of_spells spells, Option.none_or, defectOfMembers?]
  | _, _, .cons _ spells _ later => by
    rw [defectOfMembers?, defect?_of_spells spells, Option.none_or, defectOfMembers?_of_spells later]

end

/-- An array has no defect if none of its items has one. -/
theorem defectOfItems?_eq_none {items : List Document} :
    defectOfItems? items = none ↔ ∀ item ∈ items, item.defect? = none := by
  induction items with
  | nil => simp [defectOfItems?]
  | cons item items ih => rw [defectOfItems?, Option.or_eq_none_iff, ih, List.forall_mem_cons]

theorem defectOfMembers?_eq_none {members : List (Except Defect String × Document)} :
    defectOfMembers? members = none ↔ ∀ m ∈ members, m.2.defect? = none := by
  induction members with
  | nil => simp [defectOfMembers?]
  | cons m members ih => rw [defectOfMembers?, Option.or_eq_none_iff, ih, List.forall_mem_cons]

/-- Whether a document has a defect in it that shows both in reading and in passing over. -/
inductive Document.Breaks : Document → Prop
  | scalar {d d'} : Breaks (.scalar (.error d) (some d'))
  | arrayEnding {items d} : Breaks (.array items (some d))
  | item {items ending} (item : Document) (mem : item ∈ items) (breaks : Breaks item) :
      Breaks (.array items ending)
  | objectEnding {members d} : Breaks (.object members (some d))
  | member {members ending} (m : Except Defect String × Document) (mem : m ∈ members)
      (breaks : Breaks m.2) : Breaks (.object members ending)

/-- What breaks cannot be passed over. -/
theorem Document.Breaks.defect?_ne_none {d : Document} (breaks : d.Breaks) : d.defect? ≠ none := by
  induction breaks with
  | scalar => simp [defect?]
  | arrayEnding => simp [defect?]
  | objectEnding => simp [defect?]
  | item item mem _ ih =>
    rw [defect?, Ne, Option.or_eq_none_iff, defectOfItems?_eq_none]
    exact fun sound => ih (sound.1 item mem)
  | member m mem _ ih =>
    rw [defect?, Ne, Option.or_eq_none_iff, defectOfMembers?_eq_none]
    exact fun sound => ih (sound.1 m mem)

/-! ### Soundness of what is read -/

/-- Whether what is read is the text of a value, or a value that breaks. -/
def SoundValue (cs : List Char) : Scan Document → Prop
  | (d, some rest) =>
    ∃ b text, (∀ c ∈ b, isGap c = true) ∧ d.Spells text ∧ cs = b ++ (text ++ rest)
  | (d, none) => d.Breaks

/-- Whether what is read is the text of items up to the bracket, or some items break. -/
def SoundItems (cs : List Char) : List Document × Option Defect × Option (List Char) → Prop
  | (items, ending, some rest) =>
    ending = none ∧ ∃ text, SpellsItems items text ∧ cs = text ++ ']' :: rest
  | (items, ending, none) => ending ≠ none ∨ ∃ item ∈ items, item.Breaks

/-- Whether what is read is the text of members up to the bracket, or some members break. -/
def SoundMembers (cs : List Char) :
    List (Except Defect String × Document) × Option Defect × Option (List Char) → Prop
  | (members, ending, some rest) =>
    ending = none ∧ ∃ text, SpellsMembers members text ∧ cs = text ++ '\x7d' :: rest
  | (members, ending, none) => ending ≠ none ∨ ∃ m ∈ members, m.2.Breaks

/-- What could not be read breaks the text. -/
theorem breaks_broken (d : Defect) : (broken d).Breaks := .scalar

/-- What stands behind a gap. -/
theorem exists_of_dropBlank (h : dropBlank cs = rest) :
    ∃ b, (∀ c ∈ b, isGap c = true) ∧ cs = b ++ rest :=
  ⟨cs.takeWhile isGap, List.all_eq_true.1 List.all_takeWhile, by
    rw [← h]; exact List.takeWhile_append_dropWhile.symm⟩

/-- White space in front of an item is passed over. -/
theorem scanItems_dropBlank (n : Nat) (cs : List Char) :
    scanItems n (dropBlank cs) = scanItems n cs := by
  obtain ⟨b, gap, whole⟩ := exists_of_dropBlank (@rfl _ (dropBlank cs))
  rw [← scanItems_append gap, ← whole]

theorem scanMembers_dropBlank (n : Nat) (cs : List Char) :
    scanMembers n (dropBlank cs) = scanMembers n cs := by
  obtain ⟨b, gap, whole⟩ := exists_of_dropBlank (@rfl _ (dropBlank cs))
  rw [← scanMembers_append gap, ← whole]

/-- The rest of a word was there. -/
theorem eq_append_of_expect {expected : List Char} (h : expect expected cs = .ok rest) :
    cs = expected ++ rest := by
  fun_induction expect expected cs with
  | case1 rest => exact Except.ok.inj h
  | case3 _ _ _ ih => rw [ih h, List.cons_append]
  | _ => cases h

/-- `null`, `true` and `false` are read whole. -/
theorem soundValue_word {value : Scalar} {expected : String} (word : String)
    (known : (value, word) ∈ words) (h : word.toList = c :: expected.toList)
    (start : dropBlank cs = c :: rest) : SoundValue cs (scanWord value expected rest) := by
  obtain ⟨b, gap, rfl⟩ := exists_of_dropBlank start
  rw [scanWord]
  split
  next left read =>
    obtain rfl := eq_append_of_expect read
    exact ⟨b, _, gap, .word known, by rw [h]; rfl⟩
  next => exact breaks_broken _

/-- What cannot be passed over cannot be read. -/
theorem exists_error_of_skipText {d : Defect} (skipped : skipText cs = .error d) :
    ∃ d', readText cs = .error d' := by
  cases read : readText cs with
  | error d' => exact ⟨d', rfl⟩
  | ok s =>
    obtain ⟨rest, passed⟩ := exists_skipText_of_readText read
    cases skipped.symm.trans passed

/-- A string that was read to its closing quote is a literal. -/
theorem soundValue_string (start : dropBlank cs = '"' :: rest) : SoundValue cs (scanString rest) := by
  obtain ⟨b, gap, rfl⟩ := exists_of_dropBlank start
  rw [scanString]
  split
  next left skipped =>
    obtain ⟨inside, literal, rfl⟩ := skipText_eq_ok.1 skipped
    have spells := Document.Spells.string literal
    rw [map_textOf literal left] at spells
    exact ⟨b, _, gap, spells, by simp⟩
  next d skipped =>
    obtain ⟨d', read⟩ := exists_error_of_skipText skipped
    rw [read]
    exact .scalar

/-- So is a number. -/
theorem soundValue_number (start : dropBlank cs = rest) : SoundValue cs (scanNumber rest) := by
  obtain ⟨b, gap, rfl⟩ := exists_of_dropBlank start
  rw [scanNumber]
  split
  next numeral left read =>
    obtain ⟨text, spells, rfl⟩ := spells_of_scanNumeral read
    exact ⟨b, _, gap, .number spells, rfl⟩
  next => exact .scalar
  next => exact breaks_broken _

/-- An array is as sound as its items. -/
theorem soundValue_array {scan : List Document × Option Defect × Option (List Char)}
    (gap : ∀ c ∈ b, isGap c = true) (sound : SoundItems cs scan) :
    SoundValue (b ++ '[' :: cs) (.array scan.1 scan.2.1, scan.2.2) := by
  obtain ⟨items, ending, left⟩ := scan
  cases left with
  | some rest =>
    obtain ⟨rfl, text, spells, rfl⟩ := sound
    exact ⟨b, _, gap, .array spells, by simp⟩
  | none =>
    obtain ended | ⟨item, mem, breaks⟩ := sound
    · obtain ⟨d, rfl⟩ := Option.ne_none_iff_exists'.1 ended
      exact .arrayEnding
    · exact .item item mem breaks

/-- So is an object. -/
theorem soundValue_object
    {scan : List (Except Defect String × Document) × Option Defect × Option (List Char)}
    (gap : ∀ c ∈ b, isGap c = true) (sound : SoundMembers cs scan) :
    SoundValue (b ++ '\x7b' :: cs) (.object scan.1 scan.2.1, scan.2.2) := by
  obtain ⟨members, ending, left⟩ := scan
  cases left with
  | some rest =>
    obtain ⟨rfl, text, spells, rfl⟩ := sound
    exact ⟨b, _, gap, .object spells, by simp⟩
  | none =>
    obtain ended | ⟨m, mem, breaks⟩ := sound
    · obtain ⟨d, rfl⟩ := Option.ne_none_iff_exists'.1 ended
      exact .objectEnding
    · exact .member m mem breaks

/-- The first character decides what a value is. -/
theorem soundValue_succ (items : ∀ cs, SoundItems cs (scanItems n cs))
    (members : ∀ cs, SoundMembers cs (scanMembers n cs)) (cs : List Char) :
    SoundValue cs (scanValue (n + 1) cs) := by
  rw [scanValue]
  split
  · exact breaks_broken _
  next start => exact soundValue_word "null" (by simp [words]) rfl start
  next start => exact soundValue_word "true" (by simp [words]) rfl start
  next start => exact soundValue_word "false" (by simp [words]) rfl start
  next start => exact soundValue_string start
  next rest start =>
    obtain ⟨b, gap, rfl⟩ := exists_of_dropBlank start
    split
    · exact .arrayEnding
    next left closed =>
      obtain ⟨b', gap', rfl⟩ := exists_of_dropBlank closed
      exact ⟨b, _, gap, .emptyArray gap', by simp⟩
    next =>
      rw [scanItems_dropBlank]
      exact soundValue_array gap (items rest)
  next rest start =>
    obtain ⟨b, gap, rfl⟩ := exists_of_dropBlank start
    split
    next left closed =>
      obtain ⟨b', gap', rfl⟩ := exists_of_dropBlank closed
      exact ⟨b, _, gap, .emptyObject gap', by simp⟩
    next =>
      rw [scanMembers_dropBlank]
      exact soundValue_object gap (members rest)
  next start =>
    split
    · exact soundValue_number start
    · exact breaks_broken _

/-- One more item in front, with the blanks around it and a comma. -/
theorem soundItems_cons {item : Document}
    {scan : List Document × Option Defect × Option (List Char)} (spells : item.Spells text)
    (around : Around text padded) (sound : SoundItems cs scan) :
    SoundItems (padded ++ ',' :: cs) (item :: scan.1, scan.2.1, scan.2.2) := by
  obtain ⟨items, ending, left⟩ := scan
  cases left with
  | some rest =>
    obtain ⟨rfl, text, later, rfl⟩ := sound
    exact ⟨rfl, _, .cons spells around later, by simp⟩
  | none =>
    obtain ended | ⟨other, mem, breaks⟩ := sound
    · exact .inl ended
    · exact .inr ⟨other, List.mem_cons_of_mem _ mem, breaks⟩

theorem soundMembers_cons {name : Except Defect String} {head : List Char} {value : Document}
    {scan : List (Except Defect String × Document) × Option Defect × Option (List Char)}
    (named : SpellsName name head) (spells : value.Spells text) (around : Around text padded)
    (sound : SoundMembers cs scan) :
    SoundMembers (head ++ (padded ++ ',' :: cs)) ((name, value) :: scan.1, scan.2.1, scan.2.2) := by
  obtain ⟨members, ending, left⟩ := scan
  cases left with
  | some rest =>
    obtain ⟨rfl, text, later, rfl⟩ := sound
    exact ⟨rfl, _, .cons named spells around later, by simp⟩
  | none =>
    obtain ended | ⟨m, mem, breaks⟩ := sound
    · exact .inl ended
    · exact .inr ⟨m, List.mem_cons_of_mem _ mem, breaks⟩

/-- Behind an item a comma or the closing bracket. -/
theorem soundItems_succ (values : ∀ cs, SoundValue cs (scanValue n cs))
    (items : ∀ cs, SoundItems cs (scanItems n cs)) (cs : List Char) :
    SoundItems cs (scanItems (n + 1) cs) := by
  have first := values cs
  rw [scanItems]
  split
  next item read =>
    rw [read] at first
    exact .inr ⟨item, List.mem_singleton_self item, first⟩
  next item rest read =>
    rw [read] at first
    obtain ⟨b, text, gap, spells, rfl⟩ := first
    split
    · exact .inl (by simp)
    next closed =>
      obtain ⟨b', gap', rfl⟩ := exists_of_dropBlank closed
      exact ⟨rfl, _, .last spells ⟨b, b', gap, gap', rfl⟩, by simp⟩
    next rest comma =>
      obtain ⟨b', gap', rfl⟩ := exists_of_dropBlank comma
      split
      · exact .inl (by simp)
      next =>
        -- Blanks behind the comma are part of the next item's surroundings, or of this one's.
        rw [scanItems_dropBlank]
        simpa using soundItems_cons spells ⟨b, b', gap, gap', rfl⟩ (items rest)
    · exact .inl (by simp)

/-- A name, a colon, a value, and a comma or the closing brace. -/
theorem soundMembers_succ (values : ∀ cs, SoundValue cs (scanValue n cs))
    (members : ∀ cs, SoundMembers cs (scanMembers n cs)) (cs : List Char) :
    SoundMembers cs (scanMembers (n + 1) cs) := by
  rw [scanMembers]
  split
  · exact .inl (by simp)
  next rest start =>
    dsimp only
    obtain ⟨b, gap, rfl⟩ := exists_of_dropBlank start
    split
    · exact .inr ⟨_, List.mem_singleton_self _, breaks_broken _⟩
    next rest skipped =>
      obtain ⟨inside, literal, rfl⟩ := skipText_eq_ok.1 skipped
      split
      · exact .inr ⟨_, List.mem_singleton_self _, breaks_broken _⟩
      next rest colon =>
        obtain ⟨b', gap', rfl⟩ := exists_of_dropBlank colon
        -- The name has only been passed over so far. It is read as what its literal says, be it
        -- with a defect.
        have first := values rest
        split
        next value read =>
          rw [read] at first
          exact .inr ⟨_, List.mem_singleton_self _, first⟩
        next value rest read =>
          rw [read] at first
          obtain ⟨b₁, text, gap₁, spells, rfl⟩ := first
          have named : SpellsName (textOf inside) _ := .mk literal rfl ⟨b, b', gap, gap', rfl⟩
          rw [readText_append literal]
          split
          · exact .inl (by simp)
          next closed =>
            obtain ⟨b₂, gap₂, rfl⟩ := exists_of_dropBlank closed
            exact ⟨rfl, _, .last named spells ⟨b₁, b₂, gap₁, gap₂, rfl⟩, by simp⟩
          next rest comma =>
            obtain ⟨b₂, gap₂, rfl⟩ := exists_of_dropBlank comma
            simpa [textOf] using soundMembers_cons named spells ⟨b₁, b₂, gap₁, gap₂, rfl⟩ (members rest)
          · exact .inl (by simp)
      · exact .inr ⟨_, List.mem_singleton_self _, breaks_broken _⟩
  · exact .inl (by simp)

/-- By induction on how many may be read, for values, items and members at once. -/
theorem sound_scan (n : Nat) : (∀ cs, SoundValue cs (scanValue n cs)) ∧
    (∀ cs, SoundItems cs (scanItems n cs)) ∧ (∀ cs, SoundMembers cs (scanMembers n cs)) := by
  induction n with
  | zero => exact ⟨fun _ => breaks_broken _, fun _ => .inl (by simp), fun _ => .inl (by simp)⟩
  | succ n ih =>
    obtain ⟨values, items, members⟩ := ih
    exact ⟨soundValue_succ items members, soundItems_succ values items,
      soundMembers_succ values members⟩

/-- A text is one of the document that is read from it, unless the document breaks or something stands
    behind it. -/
theorem isTextOf_of_ofText {d : Document} {s : String} (read : Document.ofText s = (d, none)) :
    d.IsTextOf s ∨ d.Breaks := by
  have sound := (sound_scan (2 * s.toList.length + 2)).1 s.toList
  rw [Document.ofText] at read
  split at read
  next value scanned =>
    rw [scanned] at sound
    cases read
    exact .inr sound
  next value rest scanned =>
    rw [scanned] at sound
    obtain ⟨b, text, gap, spells, whole⟩ := sound
    obtain ⟨rfl, ended⟩ := Prod.mk.inj read
    have blank : dropBlank rest = [] := by simpa using ended
    obtain ⟨b', gap', rfl⟩ := exists_of_dropBlank blank
    exact .inl ⟨text, spells, b, b', gap, gap', by simpa using whole⟩

end ContextualQuery.Json
