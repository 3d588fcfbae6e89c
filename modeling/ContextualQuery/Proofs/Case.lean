import ContextualQuery.Proofs.RoundTrip.Names

/-! Texts in another ASCII case.

    Lower-casing ASCII letters, all of them or none, turns letters into letters. So it changes
    neither what a text is in full lower case (`lowercase_recase`) nor where its dots, quotes and
    backslashes are. All that has to be known for that of the 26 capitals is gone through once
    (`capitals`). -/

namespace ContextualQuery

open Lexemes Reading Unicode

/-- A change of characters that lower-cases ASCII letters or does nothing. -/
def Recases (c : Char → Char) : Prop := ∀ x, c x = x ∨ c x = x.toLower

theorem recases_id : Recases id := fun _ => .inl rfl

theorem recases_toLower : Recases Char.toLower := fun _ => .inr rfl

/-- A text with each of its characters changed. -/
def Text.recase (c : Char → Char) (s : String) : String := String.ofList (s.toList.map c)

variable {c : Char → Char} {x mark : Char} {before cs : List Char} {s t : String}

/-! ### Letters -/

/-- Whether characters are letters that differ in nothing but their case. -/
structure Capital (upper lower : Char) : Prop where
  letter : isAlphanumeric upper = true
  letter' : isAlphanumeric lower = true
  cased : isCased lower = isCased upper
  ignorable : isCaseIgnorable lower = isCaseIgnorable upper
  simple : upper ≠ 'Σ' ∧ upper ≠ 'İ' ∧ lower ≠ 'Σ' ∧ lower ≠ 'İ'
  same : lowerCodePoint lowerRanges lower.toNat = lowerCodePoint lowerRanges upper.toNat

instance (upper lower : Char) : Decidable (Capital upper lower) :=
  decidable_of_iff (isAlphanumeric upper = true ∧ isAlphanumeric lower = true ∧
      isCased lower = isCased upper ∧ isCaseIgnorable lower = isCaseIgnorable upper ∧
      (upper ≠ 'Σ' ∧ upper ≠ 'İ' ∧ lower ≠ 'Σ' ∧ lower ≠ 'İ') ∧
      lowerCodePoint lowerRanges lower.toNat = lowerCodePoint lowerRanges upper.toNat)
    ⟨fun ⟨a, b, c, d, e, f⟩ => ⟨a, b, c, d, e, f⟩, fun ⟨a, b, c, d, e, f⟩ => ⟨a, b, c, d, e, f⟩⟩

/-- A capital is one of the 26. -/
theorem exists_of_isUpper (upper : x.isUpper = true) : ∃ i < 26, Char.ofNat (65 + i) = x := by
  obtain ⟨low, high⟩ : 65 ≤ x.toNat ∧ x.toNat ≤ 90 := of_decide_eq_true upper
  exact ⟨x.toNat - 65, by omega, by rw [Nat.add_sub_cancel' low, Char.ofNat_toNat]⟩

/-- What is no capital stays. -/
theorem toLower_of_not_isUpper (other : ¬x.isUpper = true) : x.toLower = x := by
  unfold Char.toLower
  split
  next capital => exact absurd (decide_eq_true capital) other
  next => rfl

/-- Lower-casing twice is lower-casing once, as no small letter is a capital. -/
theorem toLower_toLower (x : Char) : x.toLower.toLower = x.toLower := by
  by_cases upper : x.isUpper = true
  · obtain ⟨i, hi, rfl⟩ := exists_of_isUpper upper
    have twice : ∀ i < 26, (Char.ofNat (65 + i)).toLower.toLower = (Char.ofNat (65 + i)).toLower := by
      decide +kernel
    exact twice i hi
  · rw [toLower_of_not_isUpper upper, toLower_of_not_isUpper upper]

/-- The table of the 26 capitals, gone through once: `A` to `Z` are letters, so are `a` to `z`, and
    full lower case tells no pair apart. -/
theorem capitals : ∀ i < 26, Capital (Char.ofNat (65 + i)) (Char.ofNat (65 + i)).toLower := by
  decide +kernel

namespace Recases

/-- A character that is changed is one of the 26 capitals. -/
theorem eq_or_capital (h : Recases c) (x : Char) : c x = x ∨ Capital x (c x) := by
  rcases h x with same | lower
  · exact .inl same
  · by_cases upper : x.isUpper = true
    · obtain ⟨i, hi, rfl⟩ := exists_of_isUpper upper
      exact .inr (lower ▸ capitals i hi)
    · exact .inl (lower.trans (toLower_of_not_isUpper upper))

/-- A changed character is as good a word character as the old one. -/
theorem lowered (h : Recases c) (x : Char) : Lowered x (c x) :=
  (h.eq_or_capital x).imp_right fun capital => ⟨capital.letter, capital.letter'⟩

/-- What is no letter stays, and nothing else becomes it. -/
theorem eq_iff (h : Recases c) (other : isAlphanumeric mark = false) : c x = mark ↔ x = mark :=
  ((h.lowered x).eq_iff other).symm

/-- Folding forgets whether a character was changed before. -/
theorem toLower_eq (h : Recases c) (x : Char) : (c x).toLower = x.toLower := by
  rcases h x with same | lower
  · rw [same]
  · rw [lower, toLower_toLower]

/-- Nothing happens to what is in full lower case. -/
theorem of_isLower (h : Recases c) (lower : IsLower x) : c x = x :=
  (h x).elim id fun same => same.trans (toLower_of_isLower lower)

/-! ### Full lower case -/

/-- Whether a cased letter is met first, which decides the form of a capital sigma, does not depend
    on ASCII case. -/
theorem meetsCased_eq (h : Recases c) (cs : List Char) : meetsCased (cs.map c) = meetsCased cs := by
  have passed : isCaseIgnorable ∘ c = isCaseIgnorable := funext fun x => by
    rcases h.eq_or_capital x with same | capital
    · exact congrArg isCaseIgnorable same
    · exact capital.ignorable
  rw [meetsCased, meetsCased, List.dropWhile_map, passed]
  cases cs.dropWhile isCaseIgnorable with
  | nil => rfl
  | cons x cs =>
    rcases h.eq_or_capital x with same | capital
    · exact congrArg isCased same
    · exact capital.cased

/-- A character has one lower-case form, whatever the ASCII case of the text around it. -/
theorem lowerChar_eq (h : Recases c) (before : List Char) (x : Char) (after : List Char) :
    lowerChar (before.map c) (c x) (after.map c) = lowerChar before x after := by
  rcases h.eq_or_capital x with same | capital
  · rw [same, lowerChar, lowerChar, h.meetsCased_eq, h.meetsCased_eq]
  · obtain ⟨sigma, dotted, sigma', dotted'⟩ := capital.simple
    rw [lowerChar, lowerChar, if_neg sigma, if_neg dotted, if_neg sigma', if_neg dotted',
      capital.same]

/-- By induction on the rest of a text, with what stands before it as a parameter. -/
theorem lowerAfter_eq (h : Recases c) : ∀ before cs : List Char,
    lowerAfter (before.map c) (cs.map c) = lowerAfter before cs
  | _, [] => rfl
  | before, x :: cs => by
    have later := h.lowerAfter_eq (x :: before) cs
    rw [List.map_cons] at later
    rw [List.map_cons, lowerAfter, lowerAfter, h.lowerChar_eq, later]

end Recases

/-! ### Texts -/

namespace Text

@[simp] theorem toList_recase (s : String) : (recase c s).toList = s.toList.map c :=
  String.toList_ofList

@[simp] theorem recase_ofList (cs : List Char) :
    recase c (String.ofList cs) = String.ofList (cs.map c) := by
  rw [recase, String.toList_ofList]

@[simp] theorem recase_append (s t : String) : recase c (s ++ t) = recase c s ++ recase c t := by
  apply String.toList_injective
  simp

@[simp] theorem recase_id (s : String) : recase id s = s := by
  rw [recase, List.map_id, String.ofList_toList]

theorem recase_join (ss : List String) : recase c (String.join ss) = String.join (ss.map (recase c)) := by
  apply String.toList_injective
  simp [List.map_flatMap, List.flatMap_map]

@[simp] theorem recase_toString (x : Char) : recase c x.toString = (c x).toString := by
  apply String.toList_injective
  simp [Char.toString]

/-- Signs and digits stay as they are. -/
theorem recase_of_marks (h : Recases c) (marks : ∀ x ∈ s.toList, isAlphanumeric x = false) :
    recase c s = s := by
  rw [recase, List.map_congr_left fun x hx => (h.eq_iff (marks x hx)).2 rfl, List.map_id',
    String.ofList_toList]

theorem fold_append (s t : String) : fold (s ++ t) = fold s ++ fold t := recase_append s t

/-- Folding forgets the case. -/
theorem fold_recase (h : Recases c) (s : String) : fold (recase c s) = fold s := by
  rw [fold, fold, toList_recase, List.map_map]
  exact congrArg String.ofList (List.map_congr_left fun x _ => h.toLower_eq x)

/-- A text in full lower case stays. -/
theorem recase_of_isLower (h : Recases c) (lower : ∀ x ∈ s.toList, IsLower x) : recase c s = s := by
  rw [recase, List.map_congr_left fun x hx => h.of_isLower (lower x hx), List.map_id',
    String.ofList_toList]

end Text

open Text

/-- Full lower case forgets the ASCII case. -/
@[simp] theorem lowercase_recase (h : Recases c) (s : String) :
    lowercase (recase c s) = lowercase s := by
  rw [lowercase, toList_recase]
  exact congrArg String.ofList (h.lowerAfter_eq [] s.toList)

theorem recase_lowercase (h : Recases c) (s : String) : recase c (lowercase s) = lowercase s :=
  recase_of_isLower h fun x hx => isLower_of_mem_lowerAfter (by rwa [toList_lowercase] at hx)

/-! ### Quotes and escapes -/

theorem isAlphanumeric_quote : isAlphanumeric '"' = false := by
  decide

theorem isAlphanumeric_slash : isAlphanumeric '/' = false := by
  decide

theorem isAlphanumeric_anchor : isAlphanumeric '^' = false := by
  decide

/-- A text is quoted if it starts and ends with a quote and has two of them. -/
theorem betweenQuotes?_cons (x : Char) (cs : List Char) :
    Text.betweenQuotes? (x :: cs) =
      if x = '"' ∧ cs.getLast? = some '"' then some cs.dropLast else none := by
  unfold Text.betweenQuotes?
  split
  next starts =>
    obtain ⟨rfl, rfl⟩ := List.cons.inj starts
    simp
  next other =>
    rw [if_neg]
    rintro ⟨rfl, -⟩
    exact other cs rfl

theorem betweenQuotes?_map (h : Recases c) (cs : List Char) :
    Text.betweenQuotes? (cs.map c) = (Text.betweenQuotes? cs).map (List.map c) := by
  have last (y : Option Char) : y.map c = some '"' ↔ y = some '"' := by
    cases y with
    | none => simp
    | some y => simp [h.eq_iff isAlphanumeric_quote]
  cases cs with
  | nil => rfl
  | cons x cs =>
    simp only [List.map_cons, betweenQuotes?_cons, h.eq_iff isAlphanumeric_quote,
      List.getLast?_map, last]
    split
    · exact congrArg some List.map_dropLast.symm
    · rfl

/-- Quotes are taken off in either case. -/
theorem unquote_recase (h : Recases c) (s : String) :
    Text.unquote (recase c s) = recase c (Text.unquote s) := by
  rw [unquote, unquote, toList_recase, betweenQuotes?_map h]
  cases Text.betweenQuotes? s.toList with
  | none => rfl
  | some body => exact (recase_ofList body).symm

/-- A sign in front of the changed text was in front of the old one. -/
theorem Recases.map_eq_cons (h : Recases c) {rest : List Char}
    (other : isAlphanumeric mark = false) (starts : cs.map c = mark :: rest) :
    ∃ rest', cs = mark :: rest' := by
  obtain ⟨x, rest', rfl, changed, -⟩ := List.map_eq_cons_iff.1 starts
  exact ⟨rest', by rw [(h.eq_iff other).1 changed]⟩

/-- Escaped quotes are found where they were. -/
theorem unescapeQuotes_map (h : Recases c) (cs : List Char) :
    unescapeQuotes (cs.map c) = (unescapeQuotes cs).map c := by
  have backslash : c '\\' = '\\' := (h.eq_iff isAlphanumeric_backslash).2 rfl
  have quote : c '"' = '"' := (h.eq_iff isAlphanumeric_quote).2 rfl
  fun_induction unescapeQuotes cs with
  | case1 rest ih => rw [List.map_cons, List.map_cons, backslash, quote, unescapeQuotes, ih,
      List.map_cons, quote]
  | case2 x rest other ih =>
    rw [List.map_cons, unescapeQuotes.eq_2, ih, List.map_cons]
    intro rest' changed starts
    obtain ⟨rest', rfl⟩ := h.map_eq_cons isAlphanumeric_quote starts
    exact other rest' ((h.eq_iff isAlphanumeric_backslash).1 changed) rfl
  | case3 => rfl

/-- A backslash in front of a letter escapes nothing in either case, and one in front of a sign is in
    front of it in both. -/
theorem escapesAreSpecial_map (h : Recases c) (cs : List Char) :
    escapesAreSpecial (cs.map c) = escapesAreSpecial cs := by
  have backslash : c '\\' = '\\' := (h.eq_iff isAlphanumeric_backslash).2 rfl
  have held (x : Char) : ['?', '\\', '*', '^'].contains (c x) = ['?', '\\', '*', '^'].contains x := by
    have question : isAlphanumeric '?' = false := by decide
    have star : isAlphanumeric '*' = false := by decide
    rw [Bool.eq_iff_iff]
    simp only [List.contains_eq_mem, decide_eq_true_eq, List.mem_cons, List.not_mem_nil, or_false,
      h.eq_iff question, h.eq_iff isAlphanumeric_backslash, h.eq_iff star,
      h.eq_iff isAlphanumeric_anchor]
  fun_induction escapesAreSpecial cs with
  | case1 x rest ih => rw [List.map_cons, List.map_cons, backslash, escapesAreSpecial, held, ih]
  | case2 => rw [List.map_cons, List.map_nil, backslash, escapesAreSpecial]
  | case3 x rest pair single ih =>
    rw [List.map_cons, escapesAreSpecial.eq_3 _ _ ?_ ?_, ih]
    · intro y rest' changed starts
      obtain ⟨y, rest', rfl, -, -⟩ := List.map_eq_cons_iff.1 starts
      exact pair y rest' ((h.eq_iff isAlphanumeric_backslash).1 changed) rfl
    · intro changed ends
      exact single ((h.eq_iff isAlphanumeric_backslash).1 changed) (List.map_eq_nil_iff.1 ends)
  | case4 => rfl

/-! ### Names and keywords -/

/-- Dots are where they were. -/
theorem splitOnP_dot_map (h : Recases c) (cs : List Char) :
    (cs.map c).splitOnP (· == '.') = (cs.splitOnP (· == '.')).map (List.map c) := by
  have dot (x : Char) : (c x == '.') = (x == '.') := by
    rw [Bool.eq_iff_iff, beq_iff_eq, beq_iff_eq, h.eq_iff isAlphanumeric_dot]
  induction cs with
  | nil => rfl
  | cons x cs ih =>
    rw [List.map_cons, List.splitOnP_cons_eq_if_modifyHead, List.splitOnP_cons_eq_if_modifyHead, ih,
      dot]
    split
    · rfl
    · cases cs.splitOnP (· == '.') <;> rfl

theorem ofWord?_recase (h : Recases c) (s : String) :
    Connective.ofWord? (recase c s) = Connective.ofWord? s := by
  rw [Connective.ofWord?, Connective.ofWord?, fold_recase h]

end ContextualQuery
