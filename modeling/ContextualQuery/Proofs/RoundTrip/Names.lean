import ContextualQuery.Proofs.Lexing.Printing
import ContextualQuery.Proofs.Reading.Spelling

/-! Names, written and read once more.

    Splitting a name at its dot puts both halves in lower case. That changes letters and digits only,
    so dots and backslashes stay where they are (`Lowers`), and what is written for the name is split
    into the same name again (`splitName_full`). -/

namespace ContextualQuery

open Lexemes Reading Unicode

variable {s : String} {n : QualifiedName} {c d : Char} {cs ds set base : List Char}

/-! ### Lower case in its place -/

namespace Unicode

/-- A text and the same text in lower case, or some of it: a dotted capital I takes two characters. -/
inductive Lowers : List Char → List Char → Prop
  | nil : Lowers [] []
  | char {c d : Char} {cs ds : List Char} (first : Lowered c d) (rest : Lowers cs ds) :
      Lowers (c :: cs) (d :: ds)
  | dotted {cs ds : List Char} (rest : Lowers cs ds) : Lowers ('İ' :: cs) ('i' :: '\u0307' :: ds)

/-- The one character whose lower-case form is two. -/
theorem lowerChar_dotted (before after : List Char) :
    lowerChar before 'İ' after = ['i', '\u0307'] := by
  rw [lowerChar, if_neg (by decide), if_pos rfl]

/-- A character that is no letter and no digit neither changes nor comes from another. -/
theorem Lowered.eq_iff (h : Lowered c d) {mark : Char} (other : isAlphanumeric mark = false) :
    c = mark ↔ d = mark := by
  rcases h with rfl | ⟨hc, hd⟩
  · exact Iff.rfl
  · constructor <;> rintro rfl <;> simp_all

namespace Lowers

theorem refl : ∀ cs : List Char, Lowers cs cs
  | [] => .nil
  | _ :: cs => .char (.inl rfl) (refl cs)

/-- Piece by piece. -/
theorem append {cs' ds' : List Char} (h : Lowers cs ds) (h' : Lowers cs' ds') :
    Lowers (cs ++ cs') (ds ++ ds') := by
  induction h with
  | nil => exact h'
  | char first _ ih => exact .char first ih
  | dotted _ ih => exact .dotted ih

/-- By induction on the text: each character is followed by its form, of one character or two. -/
theorem lowerAfter : ∀ before cs : List Char, Lowers cs (lowerAfter before cs)
  | _, [] => .nil
  | before, c :: cs => by
    rw [Unicode.lowerAfter]
    by_cases dotted : c = 'İ'
    · subst dotted
      rw [lowerChar_dotted]
      exact .dotted (lowerAfter _ cs)
    · obtain ⟨d, one, -, lowered⟩ := lowerChar_eq before cs dotted
      rw [one]
      exact .char lowered (lowerAfter _ cs)

theorem lowercase (s : String) : Lowers s.toList (lowercase s).toList := by
  rw [toList_lowercase]
  exact .lowerAfter [] _

/-- Lower-casing keeps apart what is no letter and no digit. Only the dot that a dotted capital I
    leaves behind is made by it. -/
theorem mem_iff (h : Lowers cs ds) {mark : Char} (other : isAlphanumeric mark = false)
    (dot_above : mark ≠ '\u0307') : mark ∈ ds ↔ mark ∈ cs := by
  induction h with
  | nil => simp
  | char first _ ih => rw [List.mem_cons, List.mem_cons, ih, eq_comm, ← first.eq_iff other, eq_comm]
  | dotted _ ih =>
    have letters : isAlphanumeric 'i' = true ∧ isAlphanumeric 'İ' = true := by decide
    have own : mark ≠ 'i' ∧ mark ≠ 'İ' := by constructor <;> rintro rfl <;> simp_all
    simp [own, dot_above, ih]

/-- A text does not vanish in lower case. -/
theorem ne_nil (h : Lowers cs ds) (some_char : cs ≠ []) : ds ≠ [] := by
  cases h with
  | nil => exact some_char
  | char _ _ | dotted _ => exact List.cons_ne_nil _ _

end Lowers

/-- A sign is in the lower-cased text if it was in the text. The dot above a small `i` is not meant.
    -/
theorem mem_lowercase {mark : Char} (other : isAlphanumeric mark = false)
    (dot_above : mark ≠ '\u0307') (s : String) :
    mark ∈ (lowercase s).toList ↔ mark ∈ s.toList :=
  (Lowers.lowercase s).mem_iff other dot_above

theorem lowercase_ne_empty (h : s ≠ "") : lowercase s ≠ "" :=
  String.toList_eq_nil_iff.not.1 ((Lowers.lowercase s).ne_nil (String.toList_eq_nil_iff.not.2 h))

end Unicode

/-- Lower-casing keeps pairs together. -/
theorem Lexemes.Escaped.lowered {admits : Char → Bool} (h : Escaped admits cs)
    (letters : ∀ c, isAlphanumeric c = true → admits c = true)
    (dot_above : 'İ' ∈ cs → admits '\u0307' = true) (lowers : Lowers cs ds) : Escaped admits ds := by
  induction h generalizing ds with
  | nil =>
    cases lowers
    exact .nil
  | pair _ ih =>
    obtain _ | ⟨first, lowers⟩ := lowers
    obtain rfl := (first.eq_iff isAlphanumeric_backslash).1 rfl
    cases lowers with
    | char _ lowers => exact .pair (ih (fun mem => dot_above (by simp [mem])) lowers)
    | dotted lowers =>
      exact .pair (.char (by decide) (dot_above (by simp))
        (ih (fun mem => dot_above (by simp [mem])) lowers))
  | char plain admitted _ ih =>
    cases lowers with
    | char first lowers =>
      refine .char (fun h => plain ((first.eq_iff isAlphanumeric_backslash).2 h)) ?_
        (ih (fun mem => dot_above (by simp [mem])) lowers)
      rcases first with rfl | ⟨-, letter⟩
      · exact admitted
      · exact letters _ letter
    | dotted lowers =>
      exact .char (by decide) (letters _ (by decide)) (.char (by decide) (dot_above (by simp))
        (ih (fun mem => dot_above (by simp [mem])) lowers))

/-- Letters and digits may stand between quotes. -/
theorem isInside_of_isAlphanumeric (h : isAlphanumeric c = true) : isInside c = true := by
  simp only [isInside, bne_iff_ne]
  rintro rfl
  exact absurd (opens_of_isAlphanumeric h).1 (by decide)

/-- Escaped text made of word characters is a word. -/
theorem Lexemes.Escaped.isWordChar {punctuation : String} {admits : Char → Bool}
    (h : Escaped admits cs) (all : ∀ c ∈ cs, isWordChar punctuation c = true) :
    Escaped (isWordChar punctuation) cs := by
  induction h with
  | nil => exact .nil
  | pair _ ih => exact .pair (ih fun c hc => all c (by simp [hc]))
  | char plain _ _ ih =>
    exact .char plain (all _ List.mem_cons_self) (ih fun c hc => all c (List.mem_cons_of_mem _ hc))

/-! ### Splitting -/

theorem isAlphanumeric_dot : isAlphanumeric '.' = false := by
  decide

theorem splitOnP_of_not_mem (free : '.' ∉ cs) : cs.splitOnP (· == '.') = [cs] :=
  List.splitOnP_eq_singleton fun _ hc => beq_false_of_ne fun h => free (h ▸ hc)

/-- The first dot splits off what stands in front of it. -/
theorem splitOnP_append_dot (free : '.' ∉ set) (cs : List Char) :
    (set ++ '.' :: cs).splitOnP (· == '.') = set :: cs.splitOnP (· == '.') := by
  refine List.splitOnP_append_cons_of_forall_mem (fun c hc => ?_) '.' rfl cs
  exact beq_false_of_ne fun h => free (h ▸ hc)

/-- A name is a text without dots, or has one dot with something in front of it. -/
theorem splitName_eq_ok : splitName s = .ok n ↔
    '.' ∉ s.toList ∧ n = ⟨"", s⟩ ∨
      ∃ set base, s.toList = set ++ '.' :: base ∧ set ≠ [] ∧ '.' ∉ set ∧ '.' ∉ base ∧
        n = ⟨lowercase (String.ofList set), lowercase (String.ofList base)⟩ := by
  rw [splitName]
  constructor
  · intro split
    by_cases dot : '.' ∈ s.toList
    · obtain ⟨set, rest, chars, free⟩ := List.eq_append_cons_of_mem dot
      rw [chars, splitOnP_append_dot free] at split
      by_cases more : '.' ∈ rest
      · obtain ⟨base, rest', chars', free'⟩ := List.eq_append_cons_of_mem more
        obtain ⟨p, ps, pieces⟩ := List.exists_cons_of_ne_nil (List.splitOnP_ne_nil (· == '.') rest')
        rw [chars', splitOnP_append_dot free', pieces] at split
        simp at split
      · rw [splitOnP_of_not_mem more] at split
        cases set with
        | nil => simp at split
        | cons c set =>
          obtain rfl : _ = n := Except.ok.inj split
          exact .inr ⟨_, _, chars, List.cons_ne_nil _ _, free, more, rfl⟩
    · rw [splitOnP_of_not_mem dot] at split
      obtain rfl : _ = n := Except.ok.inj split
      exact .inl ⟨dot, rfl⟩
  · rintro (⟨free, rfl⟩ | ⟨set, base, chars, some_char, free, free', rfl⟩)
    · rw [splitOnP_of_not_mem free]
    · rw [chars, splitOnP_append_dot free, splitOnP_of_not_mem free']
      obtain ⟨c, set, rfl⟩ := List.exists_cons_of_ne_nil some_char
      rfl

/-! ### Names in full -/

/-- Set, dot, name. -/
theorem toList_full_of_set (h : n.set ≠ "") :
    n.full.toList = n.set.toList ++ '.' :: n.base.toList := by
  have present : n.hasSet = true := by simpa [QualifiedName.hasSet] using h
  simp [QualifiedName.full, present]

/-- A name in lower case with a set is split as it is written. -/
theorem splitName_of_lower (chars : s.toList = set ++ '.' :: base) (some_char : set ≠ [])
    (free : '.' ∉ set) (free' : '.' ∉ base) (lower : ∀ c ∈ s.toList, IsLower c) :
    splitName s = .ok ⟨String.ofList set, String.ofList base⟩ := by
  rw [chars, List.forall_mem_append, List.forall_mem_cons] at lower
  have same {cs : List Char} (h : ∀ c ∈ cs, IsLower c) :
      lowercase (String.ofList cs) = String.ofList cs := by
    rw [lowercase, String.toList_ofList, lowerAfter_of_isLower [] h]
  refine splitName_eq_ok.2 (.inr ⟨set, base, chars, some_char, free, free', ?_⟩)
  rw [same lower.1, same lower.2.2]

/-- What is written for a name is split into the same name, and is the text it comes from or has
    letters of it in lower case. -/
theorem splitName_full (split : splitName s = .ok n) :
    splitName n.full = .ok n ∧ Lowers s.toList n.full.toList := by
  rcases splitName_eq_ok.1 split with ⟨free, rfl⟩ | ⟨set, base, chars, some_char, free, free', rfl⟩
  · exact ⟨split, .refl _⟩
  · have lowers (cs : List Char) : Lowers cs (lowercase (String.ofList cs)).toList := by
      simpa using Lowers.lowercase (String.ofList cs)
    have some_char' : lowercase (String.ofList set) ≠ "" := lowercase_ne_empty (by simpa using some_char)
    have full := toList_full_of_set (n := ⟨lowercase (String.ofList set), lowercase (String.ofList base)⟩)
      some_char'
    constructor
    · have stays {cs : List Char} (free : '.' ∉ cs) : '.' ∉ (lowercase (String.ofList cs)).toList := by
        rwa [(lowers cs).mem_iff isAlphanumeric_dot (by decide)]
      refine splitName_eq_ok.2 (.inr ⟨_, _, full, String.toList_eq_nil_iff.not.2 some_char',
        stays free, stays free', ?_⟩)
      simp only [String.ofList_toList, lowercase_lowercase]
    · rw [full, chars]
      exact (lowers set).append (.char (.inl rfl) (lowers base))

/-- A text in lower case is what is written for its name. -/
theorem full_of_splitName_lowercase (split : splitName (lowercase s) = .ok n) :
    n.full = lowercase s := by
  rcases splitName_eq_ok.1 split with ⟨-, rfl⟩ | ⟨set, base, chars, some_char, free, free', rfl⟩
  · rfl
  · have lower : ∀ c ∈ (lowercase s).toList, IsLower c := by
      rw [toList_lowercase]
      exact fun c => isLower_of_mem_lowerAfter
    have same := splitName_of_lower chars some_char free free' lower
    obtain ⟨set_eq, base_eq⟩ := (QualifiedName.mk.injEq ..).mp (Except.ok.inj (split.symm.trans same))
    apply String.toList_injective
    rw [toList_full_of_set (by simpa [set_eq] using some_char), set_eq, base_eq, chars]
    simp

/-! ### The tokens of names -/

/-- A text is printed bare if it is not empty and all its characters are word characters. -/
theorem isBareWord_eq_true :
    isBareWord s = true ↔ s ≠ "" ∧ ∀ c ∈ s.toList, isWordChar defaultWordChars c = true := by
  simp [isBareWord]

instance (admits : Char → Bool) (cs : List Char) : Decidable (Escaped admits cs) :=
  decidable_of_iff _ escaped_iff.symm

/-- Whether a text is read as one word wherever a word can end. -/
def IsWord (punctuation s : String) : Prop :=
  s ≠ "" ∧ Escaped (isWordChar punctuation) s.toList

instance (punctuation s : String) : Decidable (IsWord punctuation s) :=
  inferInstanceAs (Decidable (s ≠ "" ∧ _))

namespace QualifiedName

/-- Whether what is written for a name is one word, or one quoted text. -/
def Clear (punctuation : String) (n : QualifiedName) : Prop :=
  if isBareWord n.full then IsWord punctuation n.full else Escaped isInside n.full.toList

instance (punctuation : String) (n : QualifiedName) : Decidable (n.Clear punctuation) :=
  inferInstanceAs (Decidable (if isBareWord n.full then _ else _))

/-- The token that a name is written as. -/
def token (n : QualifiedName) : Token :=
  if isBareWord n.full then .word n.full else .quoted (Text.quote n.full)

/-- A name is printed as one token. -/
theorem text_token (n : QualifiedName) : n.token.text = n.text := by
  rw [token, text]
  split <;> rfl

theorem isText_token (n : QualifiedName) : n.token.isText = true := by
  rw [token]
  split <;> rfl

/-- The token of a clear name is read back by itself. -/
theorem Clear.alone {punctuation : String} [Harmless punctuation] (clear : n.Clear punctuation) :
    n.token.Alone punctuation := by
  rw [Clear] at clear
  rw [token]
  split at clear
  next bare =>
    rw [if_pos bare]
    exact Token.alone_word clear.1 clear.2
  next quoted =>
    rw [if_neg quoted]
    exact Token.alone_quoted clear

/-- Names are clear where words hold all that names are written with. -/
theorem clear_of_inside (inside : Escaped isInside n.full.toList) : n.Clear defaultWordChars := by
  rw [Clear]
  split
  next bare =>
    obtain ⟨some_char, all⟩ := isBareWord_eq_true.1 bare
    exact ⟨some_char, inside.isWordChar all⟩
  next => exact inside

/-- Where quotes are allowed, the token of a name is read as the name. -/
theorem named_token {rules : Rules} (quotes : rules.rejectQuotedName = false)
    (split : splitName n.full = .ok n) : NameSpelling rules n.token n := by
  rw [token]
  split
  · exact .word split
  · exact .quoted quotes (by rwa [Text.unquote_quote])

end QualifiedName

/-- What is written for a name that was read is the same name. -/
theorem NameSpelling.split_full {rules : Rules} {t : Token} (h : NameSpelling rules t n) :
    splitName n.full = .ok n := by
  cases h with
  | word split | quoted _ split => exact (splitName_full split).1

/-- Between quotes, what is written for a name can be read if its token is not open. -/
theorem NameSpelling.inside {rules : Rules} {punctuation : String} [Harmless punctuation] {t : Token}
    (h : NameSpelling rules t n) (alone : t.Alone punctuation) : Escaped isInside n.full.toList := by
  have lowered {cs : List Char} (h : Escaped isInside cs) (lowers : Lowers cs n.full.toList) :
      Escaped isInside n.full.toList :=
    h.lowered (fun _ => isInside_of_isAlphanumeric) (fun _ => by decide) lowers
  cases h with
  | word split =>
    exact lowered (alone.word.2.mono fun _ => isInside_of_isWordChar) (splitName_full split).2
  | quoted _ split =>
    obtain ⟨body, rfl, escaped⟩ := alone.quoted
    rw [Text.unquote_quote] at split
    exact lowered escaped (splitName_full split).2

end ContextualQuery
