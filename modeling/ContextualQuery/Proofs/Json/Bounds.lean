import ContextualQuery.Proofs.Json.Numerals

/-! Integers of 64 bits.

    A longer one is read as a real number, so every integer of a document that is read, sound or not, has
    64 bits at most (`fits_ofText`). -/

namespace ContextualQuery.Json

open Document

/-- Whether all integers of a document have 64 bits. -/
inductive Document.Fits : Document → Prop
  | scalar {read skipped}
    (fits : ∀ negative n, read = .ok (.number (.integer negative n)) → n ≤ maxWord) :
    Fits (.scalar read skipped)
  | array {items ending} (fits : ∀ item ∈ items, Fits item) : Fits (.array items ending)
  | object {members ending} (fits : ∀ m ∈ members, Fits m.2) : Fits (.object members ending)

/-! ### Scalars -/

theorem fits_broken (d : Defect) : (broken d).Fits := .scalar (by rintro _ _ ⟨⟩)

/-- A word is no number. -/
theorem fits_scanWord {value : Scalar} (other : ∀ negative k, value ≠ .number (.integer negative k))
    (expected : String) (cs : List Char) : (scanWord value expected cs).1.Fits := by
  rw [scanWord]
  split
  · exact .scalar fun negative k read => absurd (Except.ok.inj read) (other negative k)
  · exact fits_broken _

/-- Nor is a string. -/
theorem fits_scanString (cs : List Char) : (scanString cs).1.Fits := by
  have other : ∀ negative k, (readText cs).map (fun s => Scalar.string (String.ofList s)) ≠
      .ok (.number (.integer negative k)) := by
    intro negative k
    cases readText cs <;> rintro ⟨⟩
  rw [scanString]
  split <;> exact .scalar fun negative k read => absurd read (other negative k)

/-- A whole number that is too large for a machine word is read as something else. -/
theorem fits_scanNumber (cs : List Char) : (scanNumber cs).1.Fits := by
  rw [scanNumber]
  split
  next numeral rest _ =>
    refine .scalar fun negative k read => ?_
    cases value : numeral.value with
    | error d => rw [value] at read; cases read
    | ok number =>
      rw [value] at read
      cases read
      exact numeral.le_of_value value
  · exact .scalar (by rintro _ _ ⟨⟩)
  · exact fits_broken _

/-! ### Values -/

section
variable {n : Nat}

/-- One case for each first character. -/
theorem fits_scanValue (items : ∀ cs, ∀ item ∈ (scanItems n cs).1, item.Fits)
    (members : ∀ cs, ∀ m ∈ (scanMembers n cs).1, m.2.Fits) (cs : List Char) :
    (scanValue (n + 1) cs).1.Fits := by
  rw [scanValue]
  split
  · exact fits_broken _
  · exact fits_scanWord (by rintro _ _ ⟨⟩) _ _
  · exact fits_scanWord (by rintro _ _ ⟨⟩) _ _
  · exact fits_scanWord (by rintro _ _ ⟨⟩) _ _
  · exact fits_scanString _
  · split
    · exact .array (by simp)
    · exact .array (by simp)
    · exact .array (items _)
  · split
    · exact .object (by simp)
    · exact .object (members _)
  · split
    · exact fits_scanNumber _
    · exact fits_broken _

theorem fits_scanItems (values : ∀ cs, (scanValue n cs).1.Fits)
    (items : ∀ cs, ∀ item ∈ (scanItems n cs).1, item.Fits) (cs : List Char) :
    ∀ item ∈ (scanItems (n + 1) cs).1, item.Fits := by
  have first := values cs
  rw [scanItems]
  split
  next item read =>
    rw [read] at first
    simpa using first
  next item rest read =>
    rw [read] at first
    split
    · simpa using first
    · simpa using first
    · split
      · simpa using first
      · exact List.forall_mem_cons.2 ⟨first, items _⟩
    · simpa using first

theorem fits_scanMembers (values : ∀ cs, (scanValue n cs).1.Fits)
    (members : ∀ cs, ∀ m ∈ (scanMembers n cs).1, m.2.Fits) (cs : List Char) :
    ∀ m ∈ (scanMembers (n + 1) cs).1, m.2.Fits := by
  rw [scanMembers]
  split
  · simp
  next rest _ =>
    dsimp only
    split
    · simpa using fits_broken _
    next rest _ =>
      split
      · simpa using fits_broken _
      next rest _ =>
        have first := values rest
        split
        next value read =>
          rw [read] at first
          simpa using first
        next value rest read =>
          rw [read] at first
          split
          · simpa using first
          · simpa using first
          · exact List.forall_mem_cons.2 ⟨first, members _⟩
          · simpa using first
      · simpa using fits_broken _
  · simp

/-- For values, items and members at once, as each of them is read in terms of the others. -/
theorem fits_scan (n : Nat) : (∀ cs, (scanValue n cs).1.Fits) ∧
    (∀ cs, ∀ item ∈ (scanItems n cs).1, item.Fits) ∧
    (∀ cs, ∀ m ∈ (scanMembers n cs).1, m.2.Fits) := by
  induction n with
  | zero => exact ⟨fun cs => fits_broken _, by simp [scanItems], by simp [scanMembers]⟩
  | succ n ih =>
    obtain ⟨values, items, members⟩ := ih
    exact ⟨fits_scanValue items members, fits_scanItems values items, fits_scanMembers values members⟩

end

/-- Every integer that is read has 64 bits, whatever the text. -/
theorem fits_ofText (s : String) : (Document.ofText s).1.Fits := by
  have read := (fits_scan (2 * s.toList.length + 2)).1 s.toList
  rw [Document.ofText]
  split <;> simp_all

end ContextualQuery.Json
