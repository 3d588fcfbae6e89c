import ContextualQuery.Proofs.Lexing.Tokens
import ContextualQuery.Proofs.Reading.Closing
import ContextualQuery.Proofs.Reading.Text

/-! Texts whose words hold the usual punctuation, as tokens and as phrases. -/

namespace ContextualQuery

open Lexemes Reading

variable {rules : Rules} {s : String} {q : Query} {ts : List Token}

/-! ### Limits -/

theorem Phrase.Fits.height_le {p : Phrase} : ∀ {depth : Nat} {groups : List Declarations},
    p.Fits rules depth groups → p.height ≤ max 1 rules.maxDepth := by
  induction p with
  | clause c => exact fun _ => Nat.le_max_left _ _
  | join left b right _ _ => exact fun fits => fits.2.2.trans (Nat.le_max_right _ _)
  | sort body keys ih => exact ih
  | scope group body ih =>
    intro depth groups fits
    cases depth with
    | zero => exact fits.elim
    | succ depth => exact ih fits.2

theorem Spells.declares {u : List Token} {next : Option Token} {p : Phrase}
    (h : Spells rules .query u next p) : ∃ group body, p = .scope group body := by
  cases h
  exact ⟨_, _, rfl⟩

/-- A whole query keeps within the limit of levels. -/
theorem Spells.height_le {u : List Token} {next : Option Token} {p : Phrase}
    (h : Spells rules .query u next p) (fits : p.Fits rules rules.maxDepth []) :
    p.height ≤ rules.maxDepth := by
  obtain ⟨group, body, rfl⟩ := h.declares
  have some_depth : rules.maxDepth ≠ 0 := by
    intro none
    rw [none] at fits
    exact fits
  have := fits.height_le
  omega

theorem no_declarations {next : Option Token} (h : next ≠ some (.comparison .gt)) :
    GroupSpelling rules [] next [] := by
  refine .group (.nil ?_) trivial
  cases next with
  | none => rfl
  | some t => simpa using h

/-! ### Texts -/

/-- Whether no token of a text goes on in what is written behind it. -/
def Ended (s : String) : Prop :=
  ∀ t ∈ (Lexemes.ofText defaultWordChars s).tokens.getLast?, t.isOpen = false

theorem parse_eq_ok_of_lexes (usual : rules.wordChars = defaultWordChars)
    (lexed : Lexes defaultWordChars s.toList ts) : parse rules s = .ok q ↔ ∃ p,
      Spells rules .query ts none p ∧ p.Fits rules rules.maxDepth [] ∧
        q = ⟨s, p.build 0, p.size, rules.defaultPrefixes⟩ := by
  have tokens : ofText rules.wordChars s = { tokens := ts } := by rw [usual, ofText_eq.2 lexed]
  rw [parse_eq_ok, tokens]
  constructor
  · rintro ⟨us, p, same, spelled, fits, rfl⟩
    obtain rfl : ts = us := congrArg Lexemes.tokens same
    exact ⟨p, spelled, fits, rfl⟩
  · rintro ⟨p, spelled, fits, rfl⟩
    exact ⟨ts, p, rfl, spelled, fits, rfl⟩

theorem parse_of_spells (usual : rules.wordChars = defaultWordChars)
    (lexed : Lexes defaultWordChars s.toList ts) {p : Phrase} (spelled : Spells rules .query ts none p)
    (fits : p.Fits rules rules.maxDepth []) :
    parse rules s = .ok ⟨s, p.build 0, p.size, rules.defaultPrefixes⟩ :=
  (parse_eq_ok_of_lexes usual lexed).2 ⟨p, spelled, fits, rfl⟩

theorem spells_of_parse (usual : rules.wordChars = defaultWordChars) (read : parse rules s = .ok q)
    (ended : Ended s) :
    ∃ ts p, Lexes defaultWordChars s.toList ts ∧ (∀ t ∈ ts.getLast?, t.isOpen = false) ∧
      Spells rules .query ts none p ∧ p.Fits rules rules.maxDepth [] ∧
      q = ⟨s, p.build 0, p.size, rules.defaultPrefixes⟩ := by
  obtain ⟨ts, p, lexed, spelled, fits, rfl⟩ := parse_eq_ok.1 read
  rw [usual] at lexed
  rw [Ended, lexed] at ended
  exact ⟨ts, p, ofText_eq.1 lexed, ended, spelled, fits, rfl⟩

end ContextualQuery
