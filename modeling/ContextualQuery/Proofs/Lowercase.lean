import ContextualQuery.Unicode.Alphanumeric
import ContextualQuery.Unicode.Lowercase

/-! Lower-casing.

    What a text becomes in lower case stays as it is when it is lower-cased once more
    (`lowercase_lowercase`). Apart from the dotted capital I, a letter or digit becomes a letter or
    digit, and whatever else stands in a text stays where it is (`Lowered`). Both are properties of
    the table of the simple mapping (`lowerRanges_settled`). -/

namespace ContextualQuery.Unicode

/-! ### The table -/

/-- Whether one range of the table holds all code points from `a` to `b`. -/
def RangeTable.coversAll : RangeTable → Nat → Nat → Bool
  | [], _, _ => false
  | (low, high) :: rest, a, b =>
    bif Nat.ble a high then Nat.ble low a && Nat.ble b high else RangeTable.coversAll rest a b

/-- A range of code points that the table covers from end to end, possibly by several entries. -/
theorem RangeTable.covers_of_coversAll {a b n : Nat} (low : a ≤ n) (high : n ≤ b) :
    ∀ {table : RangeTable}, table.coversAll a b = true → table.covers n = true
  | (l, h) :: rest, all => by
    rw [coversAll] at all
    rw [covers]
    cases below : Nat.ble a h with
    | true =>
      simp only [below, cond_true, Bool.and_eq_true, Nat.ble_eq] at all
      rw [if_pos (by omega), decide_eq_true (by omega)]
    | false =>
      have above : h < a := by
        rw [← Nat.not_le, ← Nat.ble_eq, below]
        simp
      rw [if_neg (by omega)]
      exact covers_of_coversAll low high (by simpa [below] using all)

namespace CaseRange

/-- The lower-case form of the last code point of a range. -/
def lastTarget (r : CaseRange) : Nat := r.target + (r.last - r.first)

/-- Whether no lower-case form of a range has one of its own in a table: each lies in front of
    a range that does not end below it, or between two code points of that range. -/
def fixedIn (r : CaseRange) : List CaseRange → Bool
  | [] => true
  | s :: rest =>
    bif Nat.blt s.last r.target then r.fixedIn rest
    else (Nat.ble r.lastTarget s.last || r.fixedIn rest) && (Nat.blt r.lastTarget s.first ||
      (s.stride == 2 && (r.stride == 2 || r.first == r.last) && (r.target + s.first) % 2 == 1))

/-- By recursion along the table: the target of an entry is in none of the others that move code
    points. -/
theorem lowerCodePoint_of_fixedIn {r : CaseRange} {i : Nat} (hi : i ≤ r.last - r.first)
    (aligned : i % r.stride = 0) : ∀ {ranges : List CaseRange}, r.fixedIn ranges = true →
      lowerCodePoint ranges (r.target + i) = r.target + i
  | [], _ => rfl
  | s :: rest, fixed => by
    rw [fixedIn] at fixed
    rw [lowerCodePoint]
    cases below : Nat.blt s.last r.target with
    | true =>
      rw [Nat.blt_eq] at below
      rw [if_neg (by omega)]
      exact lowerCodePoint_of_fixedIn hi aligned (by simpa [below] using fixed)
    | false =>
      simp only [below, cond_false, Bool.and_eq_true, Bool.or_eq_true, Nat.ble_eq, Nat.blt_eq,
        beq_iff_eq, lastTarget] at fixed
      obtain ⟨reach, apart⟩ := fixed
      split
      next inside =>
        rw [if_neg]
        rintro ⟨order, aligned'⟩
        -- Either the targets lie in front of `s`, or `s` maps every other letter and they are the
        -- ones it skips.
        rcases apart with front | ⟨⟨two, between⟩, odd⟩
        · omega
        · rw [two] at aligned'
          rcases between with two' | single
          · rw [two'] at aligned
            omega
          · omega
      next beyond =>
        rcases reach with reach | fixed
        · omega
        · exact lowerCodePoint_of_fixedIn hi aligned fixed

/-- Whether a code point is none of those from the first form of a range to the last. -/
def avoids (r : CaseRange) (n : Nat) : Bool := Nat.blt r.lastTarget n || Nat.blt n r.target

/-- Whether all code points of a range are letters or digits. -/
def alphanumeric (r : CaseRange) : Bool :=
  alphanumericRanges.coversAll r.first r.last ||
    (List.range (r.last + 1 - r.first)).all fun i =>
      i % r.stride != 0 || alphanumericRanges.covers (r.first + i)

/-- Whether the code points of a range and their forms are letters or digits, and whether no form
    has a lower-case form of its own. -/
def settled (r : CaseRange) : Bool :=
  r.alphanumeric && alphanumericRanges.coversAll r.target r.lastTarget &&
    r.fixedIn lowerRanges && r.avoids 'Σ'.toNat && r.avoids 'İ'.toNat &&
    (Nat.blt r.lastTarget 0xD800 || Nat.blt 0xDFFF r.target && Nat.blt r.lastTarget 0x110000)

end CaseRange

set_option maxRecDepth 4000 in
/-- The whole table is gone through: no target of any entry is moved again. -/
theorem lowerRanges_settled : lowerRanges.all CaseRange.settled = true := by
  -- one pass over the table for each part, since together they take the kernel too much memory
  have source : lowerRanges.all CaseRange.alphanumeric = true := by decide +kernel
  have target :
      lowerRanges.all (fun r => alphanumericRanges.coversAll r.target r.lastTarget) = true := by
    decide +kernel
  have fixed : lowerRanges.all (CaseRange.fixedIn · lowerRanges) = true := by decide +kernel
  have rest : lowerRanges.all (fun r => r.avoids 'Σ'.toNat && r.avoids 'İ'.toNat &&
      (Nat.blt r.lastTarget 0xD800 || Nat.blt 0xDFFF r.target && Nat.blt r.lastTarget 0x110000)) =
        true := by
    decide +kernel
  rw [List.all_eq_true] at source target fixed rest ⊢
  intro r mem
  rw [CaseRange.settled, source r mem, target r mem, fixed r mem, Bool.true_and]
  exact rest r mem

/-- A code point that is moved is moved by one entry. -/
theorem lowerCodePoint_eq_or_mem (ranges : List CaseRange) (n : Nat) :
    lowerCodePoint ranges n = n ∨ ∃ r ∈ ranges, ∃ i ≤ r.last - r.first, r.first ≤ r.last ∧
      i % r.stride = 0 ∧ n = r.first + i ∧ lowerCodePoint ranges n = r.target + i := by
  induction ranges with
  | nil => exact .inl rfl
  | cons r rest ih =>
    unfold lowerCodePoint
    split
    next below =>
      split
      next inside =>
        exact .inr ⟨r, List.mem_cons_self, n - r.first, by omega, by omega, inside.2, by omega, rfl⟩
      next outside => exact .inl rfl
    next above =>
      rcases ih with same | ⟨r', mem, found⟩
      · exact .inl same
      · exact .inr ⟨r', List.mem_cons_of_mem _ mem, found⟩

/-- The lower-case form of a code point is the code point itself, or letters or digits become
    letters or digits, and the form is its own lower-case form. -/
theorem lowerCodePoint_settled (n : Nat) :
    lowerCodePoint lowerRanges n = n ∨ ∃ t, lowerCodePoint lowerRanges n = t ∧
      lowerCodePoint lowerRanges t = t ∧ alphanumericRanges.covers n = true ∧
      alphanumericRanges.covers t = true ∧ t ≠ 'Σ'.toNat ∧ t ≠ 'İ'.toNat ∧ t.isValidChar := by
  rcases lowerCodePoint_eq_or_mem lowerRanges n with same | ⟨r, mem, i, hi, order, aligned, rfl, form⟩
  · exact .inl same
  · right
    have all := List.all_eq_true.1 lowerRanges_settled r mem
    simp only [CaseRange.settled, Bool.and_eq_true, Bool.or_eq_true, Nat.blt_eq,
      CaseRange.avoids] at all
    obtain ⟨⟨⟨⟨⟨source, target⟩, fixed⟩, sigma⟩, dotted⟩, valid⟩ := all
    have high : r.target + i ≤ r.lastTarget := Nat.add_le_add_left hi _
    refine ⟨r.target + i, form, ?_, ?_, ?_, ?_, ?_, ?_⟩
    · exact CaseRange.lowerCodePoint_of_fixedIn hi aligned fixed
    · rcases Bool.or_eq_true_iff.1 source with all | each
      · exact RangeTable.covers_of_coversAll (by omega) (by omega) all
      · simpa [aligned] using List.all_eq_true.1 each i (List.mem_range.2 (by omega))
    · exact RangeTable.covers_of_coversAll (by omega) high target
    · omega
    · omega
    · rw [Nat.isValidChar]
      omega

/-! ### Characters -/

/-- Whether a character is its own lower-case form, wherever it stands. -/
def IsLower (c : Char) : Prop := ∀ before after, lowerChar before c after = [c]

/-- Apart from a capital sigma and `İ`, a character is in lower case if the table does not move it.
    -/
theorem isLower_of_lowerCodePoint {c : Char} (sigma : c ≠ 'Σ') (dotted : c ≠ 'İ')
    (same : lowerCodePoint lowerRanges c.toNat = c.toNat) : IsLower c := by
  intro before after
  rw [lowerChar, if_neg sigma, if_neg dotted, same, Char.ofNat_toNat]

/-- A character and what it becomes: itself, or a letter or digit that comes from another. -/
def Lowered (c d : Char) : Prop :=
  d = c ∨ isAlphanumeric c = true ∧ isAlphanumeric d = true

theorem toNat_ofNat {n : Nat} (valid : n.isValidChar) : (Char.ofNat n).toNat = n := by
  rw [Char.ofNat, dif_pos valid]
  rfl

/-- The form of a character other than `İ` is one character, which is in lower case. -/
theorem lowerChar_eq (before after : List Char) {c : Char} (dotted : c ≠ 'İ') :
    ∃ d, lowerChar before c after = [d] ∧ IsLower d ∧ Lowered c d := by
  -- Sigma is the one letter whose form depends on what stands around it.
  by_cases sigma : c = 'Σ'
  · subst sigma
    rw [lowerChar, if_pos rfl]
    split
    · exact ⟨'ς', rfl, isLower_of_lowerCodePoint (by decide) (by decide) (by decide),
        .inr (by decide)⟩
    · exact ⟨'σ', rfl, isLower_of_lowerCodePoint (by decide) (by decide) (by decide),
        .inr (by decide)⟩
  · rw [lowerChar, if_neg sigma, if_neg dotted]
    refine ⟨_, rfl, ?_⟩
    rcases lowerCodePoint_settled c.toNat with same | changed
    · rw [same, Char.ofNat_toNat]
      exact ⟨isLower_of_lowerCodePoint sigma dotted same, .inl rfl⟩
    · obtain ⟨t, form, same, source, target, not_sigma, not_dotted, valid⟩ := changed
      rw [form]
      have code := toNat_ofNat valid
      refine ⟨isLower_of_lowerCodePoint ?_ ?_ (by rw [code, same]), .inr ⟨source, ?_⟩⟩
      · intro h
        exact not_sigma (by rw [← code, h])
      · intro h
        exact not_dotted (by rw [← code, h])
      · rw [isAlphanumeric, code]
        exact target

/-- Whatever a character is lower-cased to stays. -/
theorem isLower_of_mem_lowerChar {before after : List Char} {c d : Char}
    (h : d ∈ lowerChar before c after) : IsLower d := by
  by_cases dotted : c = 'İ'
  · subst dotted
    have two : lowerChar before 'İ' after = ['i', '\u0307'] := by
      rw [lowerChar, if_neg (by decide), if_pos rfl]
    rw [two] at h
    rcases List.mem_cons.1 h with rfl | h
    · exact isLower_of_lowerCodePoint (by decide) (by decide) (by decide)
    · obtain rfl := List.mem_singleton.1 h
      exact isLower_of_lowerCodePoint (by decide) (by decide) (by decide)
  · obtain ⟨e, one, lower, -⟩ := lowerChar_eq before after dotted
    rw [one, List.mem_singleton] at h
    exact h ▸ lower

/-- A character in lower case is no ASCII capital. -/
theorem toLower_of_isLower {c : Char} (h : IsLower c) : c.toLower = c := by
  unfold Char.toLower
  split
  next capital =>
    obtain ⟨low, high⟩ : 65 ≤ c.toNat ∧ c.toNat ≤ 90 := capital
    have sigma : c ≠ 'Σ' := by
      rintro rfl
      exact absurd high (by decide)
    have dotted : c ≠ 'İ' := by
      rintro rfl
      exact absurd high (by decide)
    have form : lowerCodePoint lowerRanges c.toNat = 0x61 + (c.toNat - 0x41) := by
      rw [lowerRanges, lowerCodePoint, if_pos high, if_pos ⟨low, Nat.mod_one _⟩]
    have same := h [] []
    rw [lowerChar, if_neg sigma, if_neg dotted, form, List.singleton_inj] at same
    have code := congrArg Char.toNat same
    rw [toNat_ofNat (by rw [Nat.isValidChar]; omega)] at code
    omega
  next => rfl

/-! ### Texts -/

theorem isLower_of_mem_lowerAfter {d : Char} :
    ∀ {before cs : List Char}, d ∈ lowerAfter before cs → IsLower d
  | _, c :: cs, h => by
    rcases List.mem_append.1 h with h | h
    · exact isLower_of_mem_lowerChar h
    · exact isLower_of_mem_lowerAfter h

/-- A text in lower case stays, whatever stands in front of it. -/
theorem lowerAfter_of_isLower : ∀ (before : List Char) {cs : List Char}, (∀ c ∈ cs, IsLower c) →
    lowerAfter before cs = cs
  | _, [], _ => rfl
  | before, c :: cs, h => by
    rw [lowerAfter, h c List.mem_cons_self, lowerAfter_of_isLower (c :: before)
      fun d hd => h d (List.mem_cons_of_mem _ hd)]
    rfl

@[simp] theorem toList_lowercase (s : String) :
    (lowercase s).toList = lowerAfter [] s.toList :=
  String.toList_ofList

/-- Lower-casing a text twice is lower-casing it once. -/
@[simp] theorem lowercase_lowercase (s : String) : lowercase (lowercase s) = lowercase s := by
  rw [lowercase, toList_lowercase, lowerAfter_of_isLower [] fun _ => isLower_of_mem_lowerAfter]
  rfl

end ContextualQuery.Unicode
