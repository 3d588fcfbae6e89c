import ContextualQuery.Proofs.Escapes
import ContextualQuery.Proofs.Readability
import ContextualQuery.Proofs.SearchWords
import Mathlib.Algebra.Group.Nat.Even

/-! What search terms do to the grouping of a search string.

    A relation that asks for words or for an order takes the quotes from its term, so the characters of
    the term get where parentheses count. Readers of search strings differ in where a backslash hides
    the character behind it, in phrases only or everywhere.

        x and a > "1) OR (y"     (x AND a:>1) OR (y)      the term closes a group and opens another
        a all "(1  2)"           (a:(1 AND a:2))          two words of a group of its own
        a all " \"1\" 2"         (a:\"1\" AND a:2)        a phrase opens in phrases only

    For either reader such a clause is grouped as what it shows of its term, within the group that it
    makes itself (`exists_fragment_of_parse`). So where a term has parentheses, the grouping of the
    search string is up to the term (`not_balanced_of_parse_parentheses`). -/

namespace ContextualQuery

open Lexemes Reading Unicode

variable {rules : Rules} {cs u v x y : List Char} {ws : List String} {s : Scan}

/-! ### Readers -/

/-- A text without its backslashes and the characters that they hold. -/
def withoutEscapes : List Char → List Char
  | '\\' :: _ :: rest => withoutEscapes rest
  | ['\\'] => []
  | c :: rest => c :: withoutEscapes rest
  | [] => []

/-- Where a reader of search strings lets a backslash hide the character behind it. -/
inductive Escaping where | inPhrases | everywhere

namespace Escaping

/-- What is left of a text for the scan, which heeds backslashes in phrases itself. -/
def view : Escaping → List Char → List Char
  | .inPhrases, cs => cs
  | .everywhere, cs => withoutEscapes cs

/-- A scan over a text as it is read. -/
def scan (e : Escaping) (s : Scan) (cs : List Char) : Scan := s.run (e.view cs)

/-- Whether the parentheses outside phrases are balanced in a text as it is read, and all phrases
    closed. -/
def Balanced (e : Escaping) (text : String) : Prop :=
  e.scan (.outside 0) text.toList = .outside 0

instance (e : Escaping) (text : String) : Decidable (e.Balanced text) :=
  inferInstanceAs (Decidable (_ = _))

end Escaping

/-! ### What may stand between quotes -/

/-- Texts that have no quotes but escaped ones, and escape nothing but what terms may escape. -/
inductive Unquoted : List Char → Prop
  | nil : Unquoted []
  | pair {c cs} (special : c ∈ '"' :: specialChars) (rest : Unquoted cs) : Unquoted ('\\' :: c :: cs)
  | char {c cs} (plain : c ≠ '\\') (inside : c ≠ '"') (rest : Unquoted cs) : Unquoted (c :: cs)

/-- Whether a character is neither a parenthesis nor a quote nor a backslash. -/
def isNeutral (c : Char) : Bool := c != '(' && c != ')' && c != '"' && c != '\\'

theorem isNeutral_iff {c : Char} : isNeutral c = true ↔ c ≠ '(' ∧ c ≠ ')' ∧ c ≠ '"' ∧ c ≠ '\\' := by
  simp [isNeutral, and_assoc]

theorem withoutEscapes_cons {c : Char} (plain : c ≠ '\\') (cs : List Char) :
    withoutEscapes (c :: cs) = c :: withoutEscapes cs := by
  rw [withoutEscapes.eq_3 _ _ (by simp [plain]) (by simp [plain])]

namespace Unquoted

theorem append (hu : Unquoted u) (hv : Unquoted v) : Unquoted (u ++ v) := by
  induction hu with
  | nil => exact hv
  | pair special _ ih => exact .pair special ih
  | char plain inside _ ih => exact .char plain inside ih

theorem of_neutral (h : ∀ c ∈ cs, isNeutral c = true) : Unquoted cs := by
  induction cs with
  | nil => exact .nil
  | cons c cs ih =>
    obtain ⟨here, later⟩ := List.forall_mem_cons.1 h
    obtain ⟨-, -, inside, plain⟩ := isNeutral_iff.1 here
    exact .char plain inside (ih later)

theorem openParen : Unquoted ['('] := .char (by decide) (by decide) .nil

theorem parens {text : String} (h : Unquoted text.toList) :
    Unquoted ("(" ++ text ++ ")").toList := by
  rw [String.toList_append, String.toList_append]
  exact (openParen.append h).append (.char (by decide) (by decide) .nil)

theorem of_held (h : Escaped isInside cs)
    (held : ∀ held ∈ heldChars cs, ∃ c ∈ '"' :: specialChars, held = some c) : Unquoted cs := by
  induction h with
  | nil => exact .nil
  | pair _ ih =>
    obtain ⟨⟨c, special, same⟩, later⟩ := List.forall_mem_cons.1 held
    obtain rfl := Option.some.inj same
    exact .pair special (ih later)
  | char plain inside _ ih =>
    rw [heldChars_cons plain] at held
    exact .char plain (by simpa [isInside] using inside) (ih held)

/-- No pair reaches across white space, which terms may not escape. -/
theorem of_append_blank {b : Char} (h : Unquoted (x ++ b :: y)) (blank : isBlank b = true) :
    Unquoted x ∧ Unquoted y := by
  generalize whole : x ++ b :: y = cs at h
  induction h generalizing x with
  | nil => simp at whole
  | @pair c cs special rest ih =>
    match x with
    | [] =>
      obtain ⟨rfl, -⟩ := List.cons.inj whole
      exact absurd blank (by decide)
    | [d] =>
      obtain ⟨-, rfl, rfl⟩ : d = '\\' ∧ b = c ∧ y = cs := by simpa using whole
      have solid : ('"' :: specialChars).all (!isBlank ·) = true := by decide
      simpa [blank] using List.all_eq_true.1 solid b special
    | d :: d' :: x =>
      obtain ⟨rfl, rfl, later⟩ : d = '\\' ∧ d' = c ∧ x ++ b :: y = cs := by simpa using whole
      obtain ⟨hx, hy⟩ := ih later
      exact ⟨.pair special hx, hy⟩
  | @char c cs plain inside rest ih =>
    match x with
    | [] =>
      obtain ⟨-, rfl⟩ := List.cons.inj whole
      exact ⟨.nil, rest⟩
    | d :: x =>
      obtain ⟨rfl, later⟩ := List.cons.inj whole
      obtain ⟨hx, hy⟩ := ih later
      exact ⟨.char plain inside hx, hy⟩

theorem withoutEscapes_append (hu : Unquoted u) (v : List Char) :
    withoutEscapes (u ++ v) = withoutEscapes u ++ withoutEscapes v := by
  induction hu with
  | nil => rfl
  | pair _ _ ih => exact ih
  | char plain _ _ ih =>
    rw [List.cons_append, withoutEscapes_cons plain, withoutEscapes_cons plain, ih, List.cons_append]

/-- Without its escapes such a text has neither quotes nor backslashes, and only characters of its
    own. -/
theorem mem_withoutEscapes {c : Char} (h : Unquoted cs) (mem : c ∈ withoutEscapes cs) :
    c ∈ cs ∧ c ≠ '"' ∧ c ≠ '\\' := by
  induction h with
  | nil => simp [withoutEscapes] at mem
  | pair _ _ ih =>
    obtain ⟨own, others⟩ := ih mem
    exact ⟨List.mem_cons_of_mem _ (List.mem_cons_of_mem _ own), others⟩
  | char plain inside _ ih =>
    rw [withoutEscapes_cons plain] at mem
    obtain rfl | mem := List.mem_cons.1 mem
    · exact ⟨List.mem_cons_self, inside, plain⟩
    · obtain ⟨own, others⟩ := ih mem
      exact ⟨List.mem_cons_of_mem _ own, others⟩

end Unquoted

theorem withoutEscapes_neutral (h : ∀ c ∈ cs, isNeutral c = true) : withoutEscapes cs = cs := by
  induction cs with
  | nil => rfl
  | cons c cs ih =>
    obtain ⟨here, later⟩ := List.forall_mem_cons.1 h
    rw [withoutEscapes_cons (isNeutral_iff.1 here).2.2.2, ih later]

/-! ### Scanning what stood between quotes -/

/-- Whether no backslash waits for the character that it hides. -/
def Scan.Settled (s : Scan) : Prop := ∀ n, s ≠ .hidden n

namespace Scan

variable {c : Char}

theorem settled_outside (n : Nat) : (outside n).Settled := by
  simp [Settled]

theorem settled_step (settled : s.Settled) (plain : c ≠ '\\') : (s.step c).Settled := by
  intro n
  unfold step
  split <;> simp_all [Settled]

theorem settled_step_outside (n : Nat) (c : Char) : ((outside n).step c).Settled := by
  intro m
  unfold step
  split <;> simp_all

theorem step_neutral (settled : s.Settled) (neutral : isNeutral c = true) : s.step c = s := by
  obtain ⟨opens, closes, quotes, escapes⟩ := isNeutral_iff.1 neutral
  unfold step
  split <;> simp_all [Settled]

theorem run_neutral (settled : s.Settled) (h : ∀ c ∈ cs, isNeutral c = true) : s.run cs = s := by
  induction cs with
  | nil => rfl
  | cons c cs ih =>
    obtain ⟨here, later⟩ := List.forall_mem_cons.1 h
    change (s.step c).run cs = s
    rw [step_neutral settled here, ih later]

theorem settled_run (settled : s.Settled) (plain : ∀ c ∈ cs, c ≠ '\\') : (s.run cs).Settled := by
  induction cs generalizing s with
  | nil => exact settled
  | cons c cs ih =>
    obtain ⟨here, later⟩ := List.forall_mem_cons.1 plain
    exact ih (settled_step settled here) later

/-- Outside phrases a backslash does not count, and in a phrase it hides one character. -/
theorem settled_run_unquoted (settled : s.Settled) (h : Unquoted cs) : (s.run cs).Settled := by
  induction h generalizing s with
  | nil => exact settled
  | @pair c cs _ _ ih =>
    have both : ((s.step '\\').step c).Settled := by
      cases s with
      | outside n => exact settled_step_outside n c
      | inside n => simp [step, Settled]
      | hidden n => exact absurd rfl (settled n)
      | broken => simp [step, Settled]
    exact ih both
  | char plain _ _ ih => exact ih (settled_step settled plain)

end Scan

namespace Escaping

variable (e : Escaping)

theorem scan_append (hu : Unquoted u) (v : List Char) :
    e.scan s (u ++ v) = e.scan (e.scan s u) v := by
  have views : e.view (u ++ v) = e.view u ++ e.view v := by
    cases e with
    | inPhrases => rfl
    | everywhere => exact hu.withoutEscapes_append v
  rw [scan, views, Scan.run_append]
  rfl

theorem scan_neutral (settled : s.Settled) (h : ∀ c ∈ cs, isNeutral c = true) : e.scan s cs = s := by
  cases e with
  | inPhrases => exact Scan.run_neutral settled h
  | everywhere =>
    rw [scan, view, withoutEscapes_neutral h]
    exact Scan.run_neutral settled h

theorem settled_scan (settled : s.Settled) (h : Unquoted cs) : (e.scan s cs).Settled := by
  cases e with
  | inPhrases => exact Scan.settled_run_unquoted settled h
  | everywhere => exact Scan.settled_run settled fun c mem => (h.mem_withoutEscapes mem).2.2

/-- Without parentheses nothing that stood between quotes counts where backslashes hide quotes. -/
theorem scan_everywhere (settled : s.Settled) (h : Unquoted cs)
    (none : ∀ c ∈ cs, c ≠ '(' ∧ c ≠ ')') : everywhere.scan s cs = s := by
  refine Scan.run_neutral settled fun c mem => ?_
  obtain ⟨own, quote, plain⟩ := h.mem_withoutEscapes mem
  exact isNeutral_iff.2 ⟨(none c own).1, (none c own).2, quote, plain⟩

theorem scan_parens {text : String} (h : Unquoted text.toList) :
    e.scan (.outside 0) ("(" ++ text ++ ")").toList = e.scan (e.scan (.outside 1) text.toList) [')'] := by
  have opened : e.scan (.outside 0) ['('] = .outside 1 := by cases e <;> rfl
  rw [String.toList_append, String.toList_append]
  change e.scan _ (['('] ++ text.toList ++ [')']) = _
  rw [e.scan_append (Unquoted.openParen.append h), e.scan_append .openParen, opened]

/-! ### Words -/

/-- A scan over one word after the other. -/
def scanWords (s : Scan) (ws : List String) : Scan := ws.foldl (fun s w => e.scan s w.toList) s

/-- White space does not count, so a text is scanned as its words are. -/
theorem scanWords_words (h : Unquoted cs) :
    (∀ w ∈ Text.words (String.ofList cs), Unquoted w.toList) ∧
      ∀ s : Scan, s.Settled → e.scanWords s (Text.words (String.ofList cs)) = e.scan s cs := by
  -- The last white space leaves fewer characters in front of it.
  induction count : cs.length using Nat.strongRecOn generalizing cs with
  | ind n ih =>
    have solid_words {v : List Char} (hv : Unquoted v) (solid : ∀ c ∈ v, isBlank c = false) :
        (∀ w ∈ Text.words (String.ofList v), Unquoted w.toList) ∧
          ∀ s, e.scanWords s (Text.words (String.ofList v)) = e.scan s v := by
      rw [Text.words_of_solid solid]
      cases v with
      | nil => exact ⟨by simp, fun s => by cases e <;> rfl⟩
      | cons c v => exact ⟨by simpa using hv, fun s => by simp [scanWords]⟩
    by_cases parted : ∃ c ∈ cs, isBlank c = true
    · obtain ⟨x, b, y, rfl, blank, solid⟩ := Text.exists_last_blank parted
      obtain ⟨hx, hy⟩ := h.of_append_blank blank
      obtain ⟨front, scanned⟩ := ih x.length (by rw [← count]; simp) hx rfl
      obtain ⟨back, scanned'⟩ := solid_words hy solid
      -- A blank is none of the four marks that a scan looks at.
      have neutral : ∀ c ∈ [b], isNeutral c = true := by
        have marks : ['(', ')', '"', '\\'].all (!isBlank ·) = true := by decide
        simp only [List.all_cons, List.all_nil, Bool.and_true, Bool.and_eq_true,
          Bool.not_eq_true'] at marks
        obtain ⟨opens, closes, quotes, escapes⟩ := marks
        refine List.forall_mem_singleton.2 (isNeutral_iff.2 ⟨?_, ?_, ?_, ?_⟩) <;> rintro rfl <;>
          simp_all
      rw [Text.words_append_blank blank]
      refine ⟨List.forall_mem_append.2 ⟨front, back⟩, fun s settled => ?_⟩
      rw [scanWords, List.foldl_append]
      change e.scanWords (e.scanWords s _) _ = _
      rw [scanned s settled, scanned', e.scan_append hx, ← List.singleton_append,
        e.scan_append (.of_neutral neutral), e.scan_neutral (e.settled_scan settled hx) neutral]
    · obtain ⟨words, scanned⟩ := solid_words h (by simpa using parted)
      exact ⟨words, fun s _ => scanned s⟩

/-- Neither what stands in front of words nor what joins them counts. -/
theorem scan_intercalate {front joint : String} (hfront : ∀ c ∈ front.toList, isNeutral c = true)
    (hjoint : ∀ c ∈ joint.toList, isNeutral c = true) (hws : ∀ w ∈ ws, Unquoted w.toList)
    (settled : s.Settled) :
    Unquoted (joint.intercalate (ws.map (front ++ ·))).toList ∧
      e.scan s (joint.intercalate (ws.map (front ++ ·))).toList = e.scanWords s ws := by
  induction ws generalizing s with
  | nil => exact ⟨.nil, by cases e <;> rfl⟩
  | cons w ws ih =>
    obtain ⟨here, later⟩ := List.forall_mem_cons.1 hws
    have first : Unquoted (front ++ w).toList := by
      rw [String.toList_append]
      exact (Unquoted.of_neutral hfront).append here
    have scanned : e.scan s (front ++ w).toList = e.scan s w.toList := by
      rw [String.toList_append, e.scan_append (.of_neutral hfront), e.scan_neutral settled hfront]
    cases ws with
    | nil => exact ⟨by simpa using first, by simpa [scanWords] using scanned⟩
    | cons w' ws =>
      have reached := e.settled_scan settled here
      obtain ⟨others, scanned'⟩ := ih later reached
      rw [List.map_cons, List.map_cons, String.intercalate_cons_cons, String.toList_append,
        String.toList_append, ← List.map_cons (f := (front ++ ·))]
      refine ⟨(first.append (.of_neutral hjoint)).append others, ?_⟩
      rw [e.scan_append (first.append (.of_neutral hjoint)), e.scan_append first, scanned,
        e.scan_neutral reached hjoint, scanned']
      rfl

end Escaping

/-! ### Terms -/

/-- What a term is without its quotes could stand between quotes. -/
theorem unquoted_of_termOf {w : Token} {rest : List Char} {term : Term}
    (taken : Takes defaultWordChars u w rest) (searched : termOf rules (some w) = .ok term) :
    Unquoted term.unquoted.toList := by
  refine .of_held (termSpelling_of_termOf taken searched).unquoted ?_
  cases taken with
  | word opens escaped stops =>
    obtain ⟨text, special⟩ := checkTerm_eq_ok searched
    have plain := plain_of_special escaped (by rwa [String.toList_ofList] at special)
    rw [Term.unquoted_of_plain (by rwa [text, String.toList_ofList]), text]
    intro held mem
    obtain ⟨c, own, same⟩ := escapesAreSpecial_iff.1 special held mem
    exact ⟨c, List.mem_cons_of_mem _ own, same⟩
  -- A word with an open backslash at its end is refused as a term.
  | openWord opens escaped =>
    obtain ⟨-, special⟩ := checkTerm_eq_ok searched
    rw [String.toList_ofList, not_special_of_open escaped] at special
    contradiction
  | @quoted body _ escaped =>
    have quoted : String.ofList ('"' :: (body ++ ['"'])) = Text.quote (String.ofList body) :=
      Text.eq_quote String.toList_ofList
    rw [quoted] at searched
    obtain ⟨text, special⟩ := checkTerm_eq_ok searched
    rw [Text.unquote_quote, String.toList_ofList, String.toList_ofList] at special
    rw [Term.unquoted, text, Text.unquote_quote, String.toList_ofList]
    exact (escapesAreSpecial_unescapeQuotes escaped).1 special
  | symbol opens plain refused =>
    obtain ⟨text, -⟩ := checkTerm_eq_ok searched
    have here := isPlain_of_opens opens.1 opens.2
    rw [Char.toString] at text
    rw [Term.unquoted_of_plain (by simpa [text] using here), text, String.toList_singleton,
      heldChars_cons plain]
    simp [heldChars]
  | _ => contradiction

theorem unquoted_of_parse {source : String} {q : Query} (usual : rules.wordChars = defaultWordChars)
    (read : parse rules source = .ok q) : ∀ c ∈ q.clauses, Unquoted c.term.unquoted.toList := by
  intro c hc
  obtain ⟨w, u, rest, taken, searched⟩ := exists_taken_of_parse usual read c hc
  exact unquoted_of_termOf taken searched

/-! ### Clauses -/

/-- What is shown of a term whose words are searched for, in the group that is made of them: nothing
    where the term keeps its quotes. -/
def Term.shown (t : Term) : String :=
  match t.words with
  | [] => ""
  | [_] => t.unquoted
  | _ => "(" ++ t.unquoted ++ ")"

/-- What a clause that asks for words or for an order shows of its term outside quotes. -/
def Clause.shown (c : Clause) : String :=
  match c.relation.kind with
  | .comparison _ => c.term.unquoted
  | _ => c.term.shown

/-- Whether a search string is grouped as a text is, and all phrases in it are closed where
    backslashes hide quotes. -/
structure GroupedAs (text : String) (cs : List Char) : Prop where
  closed : Even ((withoutEscapes cs).count '"')
  alike : ∀ e : Escaping, e.scan (.outside 0) cs = e.scan (.outside 0) text.toList

theorem Unquoted.groupedAs {text : String} (h : Unquoted cs)
    (alike : ∀ e : Escaping, e.scan (.outside 0) cs = e.scan (.outside 0) text.toList) :
    GroupedAs text cs where
  closed := by
    have none : '"' ∉ withoutEscapes cs := fun mem => (h.mem_withoutEscapes mem).2.1 rfl
    rw [List.count_eq_zero_of_not_mem none]
    exact .zero
  alike := alike

section

variable {t : Term} {front : String} (hfront : ∀ c ∈ front.toList, isNeutral c = true)
  (spelled : TermSpelling t.text.toList) (unquoted : Unquoted t.unquoted.toList)

include hfront

theorem scan_front (e : Escaping) (settled : s.Settled) (cs : List Char) :
    e.scan s (front.toList ++ cs) = e.scan s cs := by
  rw [e.scan_append (.of_neutral hfront), e.scan_neutral settled hfront]

/-- A phrase behind its field shows nothing of what is in it. -/
theorem groupedAs_phrase {body : List Char} (h : Unquoted body) (closed : Escaped isInside body) :
    GroupedAs "" (front.toList ++ '"' :: (body ++ ['"'])) := by
  have views (e : Escaping) : e.view (front.toList ++ '"' :: (body ++ ['"'])) =
      front.toList ++ '"' :: (e.view body ++ ['"']) := by
    cases e with
    | inPhrases => rfl
    | everywhere =>
      rw [Escaping.view, (Unquoted.of_neutral hfront).withoutEscapes_append,
        withoutEscapes_neutral hfront, withoutEscapes_cons (by decide), h.withoutEscapes_append]
      rfl
  constructor
  · have none : '"' ∉ withoutEscapes body := fun mem => (h.mem_withoutEscapes mem).2.1 rfl
    have none' : '"' ∉ front.toList := fun mem => (isNeutral_iff.1 (hfront _ mem)).2.2.1 rfl
    -- Quotes inside the body are escaped, so the two around it are all there are.
    have two : (withoutEscapes (front.toList ++ '"' :: (body ++ ['"']))).count '"' = 2 := by
      have chars := views .everywhere
      rw [Escaping.view] at chars
      rw [chars, List.count_append, List.count_cons_self, List.count_append,
        List.count_eq_zero_of_not_mem none', Escaping.view, List.count_eq_zero_of_not_mem none]
      rfl
    rw [two]
    exact ⟨1, rfl⟩
  · intro e
    have inside : Escaped isInside (e.view body) := by
      cases e with
      | inPhrases => exact closed
      | everywhere =>
        refine .of_forall fun c mem => ?_
        obtain ⟨-, quote, plain⟩ := h.mem_withoutEscapes mem
        exact ⟨plain, by simpa [isInside] using quote⟩
    rw [Escaping.scan, views, Scan.run_append,
      Scan.run_neutral (Scan.settled_outside 0) hfront, Scan.run_phrase inside]
    cases e <;> rfl

include spelled unquoted

/-- A term as it is written shows nothing. -/
theorem groupedAs_term : GroupedAs "" (front ++ t.text).toList := by
  rw [String.toList_append]
  generalize whole : t.text.toList = cs at spelled
  cases spelled with
  | bare plain escaped =>
    rw [Term.unquoted_of_plain (by rwa [whole]), whole] at unquoted
    refine ((Unquoted.of_neutral hfront).append unquoted).groupedAs fun e => ?_
    rw [scan_front hfront e (Scan.settled_outside 0)]
    cases e with
    | inPhrases => exact Scan.run_plain plain
    | everywhere =>
      refine Escaping.scan_everywhere (Scan.settled_outside 0) unquoted fun c mem => ?_
      have here := plain c mem
      constructor <;> rintro rfl <;> exact absurd here (by decide)
  | @quoted body escaped =>
    obtain ⟨text⟩ := t
    obtain rfl := Text.eq_quote whole
    rw [Term.unquoted, Text.unquote_quote, String.toList_ofList] at unquoted
    exact groupedAs_phrase hfront unquoted escaped

/-- The words of a term are grouped as the term is, in one group if there are several. -/
theorem groupedAs_eachWord {joint : String} (hjoint : ∀ c ∈ joint.toList, isNeutral c = true) :
    GroupedAs t.shown (eachWord front t joint).toList := by
  obtain ⟨keeps, one, more⟩ := eachWord_of_words (t := t) rfl front joint
  by_cases none : t.words = []
  · rw [keeps none, Term.shown, none]
    exact groupedAs_term hfront spelled unquoted
  · have several : 2 ≤ (Text.words t.text).length := by
      by_contra few
      exact none (Term.words_of_few (by omega))
    obtain ⟨-, split⟩ := Term.quote_of_several spelled several
    have words (e : Escaping) := e.scanWords_words unquoted
    simp only [String.ofList_toList, ← split] at words
    have solid := (words .everywhere).1
    -- One word stands for itself; several are joined between parentheses.
    match same : t.words, none with
    | [w], _ =>
      have here : Unquoted w.toList := solid w (by rw [same]; exact List.mem_singleton_self w)
      have shown : t.shown = t.unquoted := by rw [Term.shown, same]
      rw [one w same, shown, String.toList_append]
      refine ((Unquoted.of_neutral hfront).append here).groupedAs fun e => ?_
      rw [scan_front hfront e (Scan.settled_outside 0), ← (words e).2 _ (Scan.settled_outside 0), same]
      rfl
    | w :: w' :: ws, _ =>
      have joins : ∀ c ∈ (" " ++ joint ++ " ").toList, isNeutral c = true := by
        have blank : isNeutral ' ' = true := by decide
        simpa [blank, or_imp, forall_and] using hjoint
      have scanned (e : Escaping) := e.scan_intercalate hfront joins solid (Scan.settled_outside 1)
      have shown : t.shown = "(" ++ t.unquoted ++ ")" := by rw [Term.shown, same]
      rw [more (by rw [same]; simp), shown]
      refine (scanned .everywhere).1.parens.groupedAs fun e => ?_
      rw [e.scan_parens (scanned e).1, e.scan_parens unquoted, (scanned e).2,
        (words e).2 _ (Scan.settled_outside 1)]

end

/-- Whether a relation asks for words or for an order, which takes the quotes from its term. -/
def Relation.Unquotes (r : Relation) : Prop :=
  r.kind = .all ∨ r.kind = .any ∨ ∃ c : Comparator, c.isOrdering = true ∧ r.kind = .comparison c

theorem Clause.groupedAs_compile {c : Clause} {front : String} (asks : c.relation.Unquotes)
    (hfront : ∀ d ∈ front.toList, isNeutral d = true) (spelled : TermSpelling c.term.text.toList)
    (unquoted : Unquoted c.term.unquoted.toList) :
    ∃ fragment, c.relation.compile front c.term = .ok fragment ∧
      GroupedAs c.shown fragment.toList := by
  have joint {word : String} (letters : word.toList.all isNeutral = true) :
      ∀ d ∈ word.toList, isNeutral d = true :=
    List.all_eq_true.1 letters
  rw [Relation.compile, Clause.shown]
  obtain all | any | ⟨o, ordering, comparison⟩ := asks
  · rw [all]
    exact ⟨_, rfl, groupedAs_eachWord hfront spelled unquoted (joint (by decide))⟩
  · rw [any]
    exact ⟨_, rfl, groupedAs_eachWord hfront spelled unquoted (joint (by decide))⟩
  · have hfront' : ∀ d ∈ (front ++ o.text).toList, isNeutral d = true := by
      rw [String.toList_append]
      exact List.forall_mem_append.2 ⟨hfront, joint (by cases o <;> decide)⟩
    have grouped : GroupedAs c.term.unquoted (front ++ o.text ++ c.term.unquoted).toList := by
      rw [String.toList_append]
      exact ((Unquoted.of_neutral hfront').append unquoted).groupedAs fun e =>
        scan_front hfront' e (Scan.settled_outside 0) _
    rw [comparison]
    cases o with
    | eq | ne => contradiction
    | gt | ge | lt | le => exact ⟨_, rfl, grouped⟩

/-- What is shown of a term without parentheses is balanced. -/
theorem Clause.balanced_shown {c : Clause} (unquoted : Unquoted c.term.unquoted.toList)
    (none : ∀ d ∈ c.term.unquoted.toList, d ≠ '(' ∧ d ≠ ')') : Escaping.everywhere.Balanced c.shown := by
  have scanned (n : Nat) : Escaping.everywhere.scan (.outside n) c.term.unquoted.toList = .outside n :=
    Escaping.scan_everywhere (Scan.settled_outside n) unquoted none
  rw [Clause.shown]
  split
  · exact scanned 0
  · rw [Term.shown]
    split
    · rfl
    · exact scanned 0
    · rw [Escaping.Balanced, Escaping.scan_parens _ unquoted, scanned]
      rfl

/-- Without names of fields, an index is the field. -/
theorem neutral_qualifierOf {set : Option String} {index : QualifiedName}
    (simple : ∀ d ∈ index.full.toList, isWordChar "." d = true) :
    ∀ d ∈ (qualifierOf (FieldNames.fieldOf {} set index)).toList, isNeutral d = true := by
  have neutral {d : Char} (h : isWordChar "." d = true) : isNeutral d = true := by
    have marks : ['(', ')', '"', '\\'].all (!isWordChar "." ·) = true := by decide
    simp only [List.all_cons, List.all_nil, Bool.and_true, Bool.and_eq_true,
      Bool.not_eq_true'] at marks
    obtain ⟨opens, closes, quotes, escapes⟩ := marks
    refine isNeutral_iff.2 ⟨?_, ?_, ?_, ?_⟩ <;> rintro rfl <;> simp_all
  have field : ∀ name ∈ FieldNames.fieldOf {} set index, name = index.full := by
    intro name found
    simp only [FieldNames.fieldOf, Dictionary.get?_empty, Option.getD_none, ite_self] at found
    split at found
    · cases found
    · split at found
      · cases found
      · exact (Option.some.inj found).symm
  cases found : FieldNames.fieldOf {} set index with
  | none => simp [qualifierOf]
  | some name =>
    obtain rfl := field name found
    have colon : isNeutral ':' = true := by decide
    rw [qualifierOf, Option.elim_some, String.toList_append, List.forall_mem_append]
    exact ⟨fun d mem => neutral (simple d mem), by simpa using colon⟩

/-! ### Queries -/

/-- The search string of a tree holds that of each of its clauses. -/
theorem Node.exists_fragment {names : FieldNames} {t : Node} {parent : Option Nat} {scope : Scope}
    {p : Place} {info : NodeInfo} {c : Clause} {text : String}
    (compiled : t.compile names scope = .ok text) (mem : p ∈ t.places parent scope)
    (here : p.node = .clause info c) :
    ∃ fragment, c.compile names p.scope = .ok fragment ∧ fragment.toList <:+: text.toList := by
  induction t generalizing parent scope text with
  | clause info' c' =>
    obtain rfl := List.mem_singleton.1 mem
    obtain ⟨rfl, rfl⟩ := Node.clause.inj here
    exact ⟨text, NodeInfo.unsorted_eq_ok compiled, List.infix_rfl⟩
  | triple info' left boolean right ih ih' =>
    obtain ⟨-, one, other, hl, hr, rfl⟩ :=
      Boolean.compile_eq_ok (NodeInfo.unsorted_eq_ok compiled)
    rw [places, List.mem_cons, List.mem_append] at mem
    simp only [String.toList_append]
    obtain rfl | mem | mem := mem
    · exact absurd here (by simp)
    · obtain ⟨fragment, found, within⟩ := ih hl mem
      refine ⟨fragment, found, within.trans ?_⟩
      simp only [List.append_assoc]
      exact (List.prefix_append _ _).isInfix.trans (List.suffix_append _ _).isInfix
    · obtain ⟨fragment, found, within⟩ := ih' hr mem
      exact ⟨fragment, found, within.trans ⟨_, _, rfl⟩⟩

/-- The search string of a clause that takes the quotes from its term is grouped as what it shows of
    the term: however backslashes are read, its parentheses are balanced exactly if those of the shown
    text are, which is so if the term has none. Where backslashes hide quotes, all of its phrases are
    closed. -/
theorem exists_fragment_of_parse {source text : String} {q : Query} {p : Place} {info : NodeInfo}
    {c : Clause} (read : parse {} source = .ok q) (compiled : q.compile {} = .ok text)
    (mem : p ∈ q.places) (here : p.node = .clause info c) (asks : c.relation.Unquotes)
    (simple : ∀ d ∈ c.index.name.full.toList, isWordChar "." d = true) :
    ∃ fragment, c.compile {} p.scope = .ok fragment ∧ fragment.toList <:+: text.toList ∧
      Even ((withoutEscapes fragment.toList).count '"') ∧
      (∀ e : Escaping, e.Balanced fragment ↔ e.Balanced c.shown) ∧
      ((∀ d ∈ c.term.unquoted.toList, d ≠ '(' ∧ d ≠ ')') → Escaping.everywhere.Balanced fragment) := by
  have clause : c ∈ q.clauses := Node.mem_clauses_of_places mem here
  have unquoted := unquoted_of_parse rfl read c clause
  obtain ⟨fragment, found, within⟩ := Node.exists_fragment (Query.compile_eq_ok.1 compiled) mem here
  have unrefined : c.relation.modifiers = [] := by
    by_contra refined
    have bare := ((root_wellFormed read).clauses c clause).2.1
    simp [Clause.compile, bare, refined] at found
  rw [((root_wellFormed read).clauses c clause).compile_eq unrefined] at found
  obtain ⟨fragment', found', grouped⟩ := Clause.groupedAs_compile asks (neutral_qualifierOf simple)
    (termSpelling_of_parse rfl read c clause) unquoted
  obtain rfl : fragment' = fragment := Except.ok.inj (found'.symm.trans found)
  have alike (e : Escaping) : e.Balanced fragment' ↔ e.Balanced c.shown := by
    rw [Escaping.Balanced, grouped.alike]
    rfl
  refine ⟨fragment', ?_, within, grouped.closed, alike, fun none => ?_⟩
  · rw [((root_wellFormed read).clauses c clause).compile_eq unrefined, found]
  · exact (alike .everywhere).2 (Clause.balanced_shown unquoted none)

theorem eq_ok_of_toOption {ε α : Type} {x : Except ε α} {a : α} (h : x.toOption = some a) :
    x = .ok a := by
  cases x with
  | error e => cases h
  | ok b => rw [Option.some.inj h]

/-- A clause of a query by what is to be seen of it. -/
theorem exists_clause_of_any {q : Query} {test : Place → Clause → Bool}
    (h : (q.places.any fun p => p.node.clause?.any (test p)) = true) :
    ∃ p ∈ q.places, ∃ info c, p.node = .clause info c ∧ test p c = true := by
  obtain ⟨p, mem, found⟩ := List.any_eq_true.1 h
  cases here : p.node with
  | clause info c =>
    rw [here] at found
    exact ⟨p, mem, info, c, here, found⟩
  | triple info left boolean right =>
    rw [here] at found
    cases found

/-- Quotes in a phrase do not count where backslashes hide them. -/
theorem exists_fragment_of_parse_quotes : ∃ q p info c,
    parse {} "title all \" \\\"so\\\"  long\" or x" = .ok q ∧ p ∈ q.places ∧
      p.node = .clause info c ∧
      c.compile {} p.scope = .ok "(title:\\\"so\\\" AND title:long)" ∧
      Escaping.everywhere.Balanced "(title:\\\"so\\\" AND title:long)" := by
  obtain ⟨q, read, known⟩ := exists_eq_ok_of_any
    (x := parse {} "title all \" \\\"so\\\"  long\" or x")
    (p := fun q =>
      (q.compile {}).toOption == some "((title:\\\"so\\\" AND title:long) OR x)" &&
        q.places.any fun p => p.node.clause?.any fun c =>
          c.relation.kind = .all && c.index.name.full.toList.all (isWordChar ".") &&
          (c.compile {} p.scope).toOption == some "(title:\\\"so\\\" AND title:long)" &&
          c.term.unquoted.toList.all fun d => d != '(' && d != ')')
    (by decide +kernel)
  simp only [Bool.and_eq_true, beq_iff_eq] at known
  obtain ⟨p, mem, info, c, here, seen⟩ := exists_clause_of_any known.2
  simp only [Bool.and_eq_true, beq_iff_eq, decide_eq_true_eq, List.all_eq_true, bne_iff_ne] at seen
  obtain ⟨⟨⟨all, simple⟩, compiled⟩, none⟩ := seen
  obtain ⟨fragment, found, -, -, -, balanced⟩ := exists_fragment_of_parse read
    (eq_ok_of_toOption known.1) mem here (.inl all) simple
  obtain rfl : fragment = _ := Except.ok.inj (found.symm.trans (eq_ok_of_toOption compiled))
  exact ⟨q, p, info, c, read, mem, here, found, balanced none⟩

/-- The parentheses of a term close a group of the search string and open another one. -/
theorem not_balanced_of_parse_parentheses : ∃ q p info c,
    parse {} "x and a > \"1) OR (y\"" = .ok q ∧ q.compile {} = .ok "(x AND a:>1) OR (y)" ∧
      p ∈ q.places ∧ p.node = .clause info c ∧ c.relation.Unquotes ∧
      (∀ d ∈ c.index.name.full.toList, isWordChar "." d = true) ∧
      c.compile {} p.scope = .ok "a:>1) OR (y" ∧ ∀ e : Escaping, ¬e.Balanced "a:>1) OR (y" := by
  obtain ⟨q, read, known⟩ := exists_eq_ok_of_any (x := parse {} "x and a > \"1) OR (y\"")
    (p := fun q =>
      (q.compile {}).toOption == some "(x AND a:>1) OR (y)" &&
        q.places.any fun p => p.node.clause?.any fun c =>
          c.relation.kind = .comparison .gt && c.index.name.full.toList.all (isWordChar ".") &&
          (c.compile {} p.scope).toOption == some "a:>1) OR (y")
    (by decide +kernel)
  simp only [Bool.and_eq_true, beq_iff_eq] at known
  obtain ⟨p, mem, info, c, here, seen⟩ := exists_clause_of_any known.2
  simp only [Bool.and_eq_true, beq_iff_eq, decide_eq_true_eq, List.all_eq_true] at seen
  obtain ⟨⟨gt, simple⟩, compiled⟩ := seen
  refine ⟨q, p, info, c, read, eq_ok_of_toOption known.1, mem, here,
    .inr (.inr ⟨.gt, rfl, gt⟩), simple, eq_ok_of_toOption compiled, fun e => ?_⟩
  cases e <;> decide

end ContextualQuery
