import ContextualQuery.Proofs.Reading.Tightening
import ContextualQuery.Proofs.Reading.Text

/-! Strict rules only restrict.

    Turning switches on makes no new query of any text and changes none: a text is read as before, or
    it is refused with the code of one of the switches that have been turned on. Nor is any code
    reported on behalf of a switch that is off. -/

namespace ContextualQuery

variable {rules strict loose : Rules} {source : String}

/-- Whether rules differ from others at most in switches that are on in them and off in the others. -/
structure Rules.Stricter (strict loose : Rules) : Prop where
  emptyTerm : loose.rejectEmptyTerm = true → strict.rejectEmptyTerm = true
  quotedName : loose.rejectQuotedName = true → strict.rejectQuotedName = true
  duplicatePrefix : loose.rejectDuplicatePrefix = true → strict.rejectDuplicatePrefix = true
  wordChars : strict.wordChars = loose.wordChars
  defaultPrefixes : strict.defaultPrefixes = loose.defaultPrefixes
  maxDepth : strict.maxDepth = loose.maxDepth

/-- Whether a number is that of a code reported by a switch in which two rules differ. -/
def Rules.Differ (strict loose : Rules) (number : Nat) : Prop :=
  number = 27 ∧ strict.rejectEmptyTerm ≠ loose.rejectEmptyTerm ∨
    number = 14 ∧ strict.rejectQuotedName ≠ loose.rejectQuotedName ∨
    number = 45 ∧ strict.rejectDuplicatePrefix ≠ loose.rejectDuplicatePrefix

/-- The numbers of the codes that a text is refused with. -/
def refusalNumbers : List Nat := [10, 14, 15, 25, 26, 27, 32, 45]

/-! ### Faults -/

/-- Whether a fault is found by a switch in which two rules differ. -/
def Rules.Separates (strict loose : Rules) : Fault → Prop
  | .emptyTerm _ => strict.rejectEmptyTerm ≠ loose.rejectEmptyTerm
  | .quotedName _ => strict.rejectQuotedName ≠ loose.rejectQuotedName
  | .duplicatePrefix _ => strict.rejectDuplicatePrefix ≠ loose.rejectDuplicatePrefix
  | _ => False

theorem differ_of_separates {f : Fault} (h : strict.Separates loose f) :
    strict.Differ loose f.code.number := by
  cases f with
  | emptyTerm => exact .inl ⟨rfl, h⟩
  | quotedName => exact .inr (.inl ⟨rfl, h⟩)
  | duplicatePrefix => exact .inr (.inr ⟨rfl, h⟩)
  | _ => exact h.elim

theorem tightened_of_imp {on off : Bool} {priced : Prop} (h : off = true → on = true)
    (price : on ≠ off → priced) : Tightened priced on off := by
  cases on <;> cases off <;> simp_all [Tightened]

theorem Rules.Stricter.tightens (h : strict.Stricter loose) :
    Rules.Tightens (strict.Separates loose) strict loose where
  emptyTerm := tightened_of_imp h.emptyTerm fun differ _ => differ
  quotedName := tightened_of_imp h.quotedName fun differ _ => differ
  duplicatePrefix := tightened_of_imp h.duplicatePrefix fun differ _ => differ
  wordChars := h.wordChars
  defaultPrefixes := h.defaultPrefixes
  maxDepth := .inl h.maxDepth

/-- A text is refused because of the limit of depth, or for a fault that the rules let a part of it
    be refused for. -/
theorem refuses_of_attempt {f : Fault} (h : attempt rules source = .error f) :
    f = .tooDeep ∨ rules.Refuses f := by
  have conduct : Reading.Conduct rules (fun _ _ => True) fun f => f = .tooDeep ∨ rules.Refuses f :=
    ⟨fun _ => trivial, fun _ _ => trivial, fun _ => trivial, fun _ => trivial, .inr⟩
  refine fault_of_attempt (E := fun f => f = .tooDeep ∨ rules.Refuses f) (fun _ _ => .inr trivial)
    (fun s _ => ?_) h
  exact (conduct.tree (.inl rfl) s).bind fun _ _ _ => trivial

theorem number_mem_refusalNumbers (f : Fault) : f.code.number ∈ refusalNumbers := by
  cases f <;> simp [Fault.code, DiagnosticCode.number, refusalNumbers]

/-! ### Texts -/

/-- Strict rules read the same queries as those that they are stricter than, and refuse no text with
    a code that is not theirs to report: what else is refused is refused as before. Any report is of
    the whole text, and none comes from a switch that is off. -/
theorem parse_stricter (h : strict.Stricter loose) (source : String) :
    (∀ q, parse strict source = .ok q → parse loose source = .ok q) ∧
      (∀ d, parse loose source = .error d → ∃ d', parse strict source = .error d' ∧
        (d' = d ∨ strict.Differ loose d'.code.number)) ∧
      (∀ q d, parse loose source = .ok q → parse strict source = .error d →
        strict.Differ loose d.code.number) ∧
      ∀ (rules : Rules) (d : Diagnostic), parse rules source = .error d →
        d.query = source ∧ d.code.number ∈ refusalNumbers ∧
        (d.code.number = 27 → rules.rejectEmptyTerm = true) ∧
        (d.code.number = 14 → rules.rejectQuotedName = true) ∧
        (d.code.number = 45 → rules.rejectDuplicatePrefix = true) := by
  have outcome : parse strict source = parse loose source ∨
      ∃ d, parse strict source = .error d ∧ strict.Differ loose d.code.number := by
    rw [parse_eq_attempt, parse_eq_attempt]
    obtain same | ⟨f, refused, separates⟩ := h.tightens.attempt_eq source
    · exact .inl (by rw [same])
    · exact .inr ⟨f.diagnostic source, by rw [refused]; rfl, differ_of_separates separates⟩
  refine ⟨fun q accepted => ?_, fun d refused => ?_, fun q d accepted refused => ?_,
    fun rules d refused => ?_⟩
  -- Each of the first three is what it means that both read alike, or that the stricter one adds a
  -- fault.
  · obtain same | ⟨d, refused, -⟩ := outcome
    · rw [← same, accepted]
    · cases accepted.symm.trans refused
  · obtain same | ⟨d', refused', differ⟩ := outcome
    · exact ⟨d, same.trans refused, .inl rfl⟩
    · exact ⟨d', refused', .inr differ⟩
  · obtain same | ⟨d', refused', differ⟩ := outcome
    · cases refused.symm.trans (same.trans accepted)
    · obtain rfl := Except.error.inj (refused.symm.trans refused')
      exact differ
  · obtain ⟨f, found, rfl⟩ := parse_eq_error_iff_attempt.1 refused
    refine ⟨rfl, number_mem_refusalNumbers f, ?_⟩
    have allowed := refuses_of_attempt found
    -- Only the fault of a switch has the number of its code.
    cases f <;>
      simp_all [Fault.diagnostic, Fault.code, DiagnosticCode.number, Rules.Refuses]

/-- Rules that reject empty terms refuse a text for that only. -/
theorem parse_empty_term_stricter : ∃ q d,
    parse {} "title = \"\"" = .ok q ∧ parse .strict "title = \"\"" = .error d ∧
      Rules.Differ .strict {} d.code.number ∧ d.query = "title = \"\"" := by
  obtain ⟨q, accepted⟩ := exists_eq_ok
    (show (parse {} "title = \"\"").isOk = true by decide +kernel)
  have refused : (parse .strict "title = \"\"").isOk = false := by decide +kernel
  have stricter : Rules.Stricter .strict {} :=
    ⟨fun _ => rfl, fun _ => rfl, fun _ => rfl, rfl, rfl, rfl⟩
  obtain ⟨-, -, code, report⟩ := parse_stricter stricter "title = \"\""
  cases read : parse .strict "title = \"\"" with
  | ok q' =>
    rw [read] at refused
    cases refused
  | error d => exact ⟨q, d, accepted, rfl, code q d accepted read, (report _ d read).1⟩

end ContextualQuery
