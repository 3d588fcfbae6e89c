import ContextualQuery.Proofs.Compilability
import ContextualQuery.Proofs.Reading.Alphabet
import ContextualQuery.Proofs.Responses

/-! The characters of a response.

    XML has no way to write most control characters, not even as entities. Details and query are
    written into a response as they are, up to entities for markup:

        a <> & dog    …<query>a &lt;&gt; &amp; dog</query>…   can be read
        cat \x01 dog  …<query>cat \x01 dog</query>…           is no document

    What else a response is made of can always be written, and what is reported of a query is made of
    the characters of the query, of their lower-case forms, and of words of the reports. So a response
    is made of characters of XML exactly if the query is, and otherwise the query is to blame for each
    of the others. -/

namespace ContextualQuery

open Reading Unicode

variable {P : Char → Prop} {rules : Rules} {u : List Token} {next : Option Token}

/-- Whether a character may stand in an XML document. -/
def isXmlChar (c : Char) : Bool :=
  c = '\t' || c = '\n' || c = '\r' || 0x20 ≤ c.toNat && c.toNat ≤ 0xD7FF ||
    0xE000 ≤ c.toNat && c.toNat ≤ 0xFFFD || 0x10000 ≤ c.toNat

/-! ### What a refusal shows -/

/-- What a report says of a text: it shows the text, and for the rest it says what can be said in the
    characters of any class that holds the text. -/
structure Diagnostic.Shows (d : Diagnostic) (source : String) : Prop where
  query : d.query = source
  details : ∀ P, Alphabet P → Within P source → Within P d.details

section

variable (a : Alphabet P)
include a

/-- Set and base of a name are pieces of the text, or lower-cased pieces. -/
theorem within_full {t : Token} {name : QualifiedName} (spelled : NameSpelling rules t name)
    (clean : Within P t.text) : Within P name.full := by
  have halves {s : String} (split : splitName s = .ok name) (clean : Within P s) :
      Within P name.full := by
    rcases splitName_eq_ok.1 split with ⟨-, rfl⟩ | ⟨set, base, chars, -, -, -, rfl⟩
    · exact clean
    · rw [Within, chars, List.forall_mem_append, List.forall_mem_cons] at clean
      obtain ⟨front, dot, back⟩ := clean
      have set : Within P (lowercase (String.ofList set)) :=
        a.within_lowercase (within_ofList.2 front)
      have base : Within P (lowercase (String.ofList base)) :=
        a.within_lowercase (within_ofList.2 back)
      rw [QualifiedName.full]
      split
      · exact within_append.2 ⟨within_append.2 ⟨set, a.within_ascii (by decide)⟩, base⟩
      · exact base
  cases spelled with
  | word split => exact halves split clean
  | @quoted s _ _ split => exact halves split clean.unquote

/-- Quotes around a name are printable. -/
theorem within_name_text {name : QualifiedName} (h : Within P name.full) : Within P name.text := by
  rw [QualifiedName.text]
  split
  · exact h
  · exact within_append.2 ⟨within_append.2 ⟨a.within_ascii (by decide), h⟩,
      a.within_ascii (by decide)⟩

theorem within_comparator (c : Comparator) : Within P c.text := by
  cases c <;> exact a.within_ascii (by decide)

/-- Slash, name, comparison and value. -/
theorem within_modifier {m : Modifier} (spelled : ModifierSpelling u next m)
    (clean : ∀ t ∈ u, Within P t.text) : Within P m.text := by
  have named {s : String} {name : QualifiedName} (split : splitName (lowercase s) = .ok name)
      (clean : Within P s) : Within P ("/" ++ name.text ++ Modifier.texts []) := by
    have full : Within P name.full := by
      rw [full_of_splitName_lowercase split]
      exact a.within_lowercase clean
    exact within_append.2 ⟨within_append.2 ⟨a.within_ascii (by decide), within_name_text a full⟩,
      within_empty⟩
  cases spelled with
  | @plain s name next split ends =>
    rw [Modifier.text]
    exact within_append.2 ⟨named split (clean (.word s) (by simp)), within_empty⟩
  | @valued s name c v next split text =>
    rw [Modifier.text]
    exact within_append.2 ⟨named split (clean (.word s) (by simp)),
      within_append.2 ⟨within_comparator a c, clean v (by simp)⟩⟩

theorem within_modifiers {ms : List Modifier} (spelled : ModifiersSpelling u next ms)
    (clean : ∀ t ∈ u, Within P t.text) : Within P (Modifier.texts ms) := by
  rw [Modifier.texts_eq, within_join]
  simp only [List.mem_map, forall_exists_index, and_imp, forall_apply_eq_imp_iff₂]
  exact forall_of_sequence (fun _ _ _ => within_modifier a) spelled clean

/-- A comparison or a word, with its set if that is not `cql`. -/
theorem within_relation {r : Relation} (spelled : RelationSpelling u next r)
    (clean : ∀ t ∈ u, Within P t.text) : Within P r.text := by
  rw [Relation.text_eq, within_append]
  cases spelled with
  | @comparison c u next modifiers refined =>
    exact ⟨within_comparator a c, within_modifiers a refined (List.forall_mem_cons.1 clean).2⟩
  | @word s name u next modifiers split refined =>
    obtain ⟨first, rest⟩ := List.forall_mem_cons.1 clean
    have word : Within P (lowercase s) := a.within_lowercase first
    rw [Relation.modifiers_ofWord]
    refine ⟨?_, within_modifiers a refined rest⟩
    rcases splitName_eq_ok.1 split with ⟨free, -⟩ | ⟨set, base, chars, -, free, -, -⟩
    · rw [ofWord_of_not_mem free, Relation.head_kindOf, if_pos rfl]
      exact word
    · rw [Within, chars, List.forall_mem_append, List.forall_mem_cons] at word
      obtain ⟨front, dot, back⟩ := word
      rw [ofWord_of_split chars free, Relation.head_kindOf]
      split
      · exact within_ofList.2 back
      · exact within_append.2 ⟨within_append.2 ⟨within_ofList.2 front, a.within_ascii (by decide)⟩,
          within_ofList.2 back⟩

theorem within_boolean {b : Boolean} (spelled : BooleanSpelling u next b)
    (clean : ∀ t ∈ u, Within P t.text) : Within P b.text := by
  cases spelled with
  | @word s connective u next modifiers joins refined =>
    have word : Within P connective.text := by cases connective <;> exact a.within_ascii (by decide)
    exact within_append.2 ⟨word, within_modifiers a refined (List.forall_mem_cons.1 clean).2⟩

/-- A sort key is a name with modifiers. -/
theorem within_key {k : Index} (spelled : KeySpelling rules u next k)
    (clean : ∀ t ∈ u, Within P t.text) : Within P k.text := by
  cases spelled with
  | key named refined =>
    obtain ⟨first, rest⟩ := List.forall_mem_cons.1 clean
    exact within_append.2 ⟨within_name_text a (within_full a named first),
      within_modifiers a refined rest⟩

/-- So are texts with blanks between them. -/
theorem within_intercalate {ss : List String} (h : ∀ s ∈ ss, Within P s) :
    Within P (" ".intercalate ss) := by
  induction ss with
  | nil => exact within_empty
  | cons s ss ih =>
    obtain ⟨first, rest⟩ := List.forall_mem_cons.1 h
    cases ss with
    | nil =>
      rw [String.intercalate_singleton]
      exact first
    | cons t ss =>
      rw [String.intercalate_cons_cons]
      exact within_append.2 ⟨within_append.2 ⟨first, a.within_ascii (by decide)⟩, ih rest⟩

/-- What is wrong with a node is shown in the characters that it was read from. -/
theorem Node.within_refusals {n : Node} (sourced : n.Sourced (fun t => Within P t.text) rules) :
    ∀ r ∈ n.refusals, Within P r.details := by
  have sorting {info : NodeInfo} (sourced : info.Sourced (fun t => Within P t.text) rules) :
      ∀ r ∈ info.refusals, Within P r.details := by
    rw [NodeInfo.refusals]
    split
    · simp
    · refine List.forall_mem_singleton.2 (within_intercalate a fun s hs => ?_)
      obtain ⟨k, hk, rfl⟩ := List.mem_map.1 hs
      obtain ⟨u, next, clean, spelled⟩ := sourced.2 k hk
      exact within_key a spelled clean
  cases n with
  | clause info c =>
    obtain ⟨u, next, clean, related⟩ := Clause.sourced_relation
      (within_comparator a .eq) sourced.2
    have shown : Within P c.relation.text := within_relation a related clean
    refine List.forall_mem_append.2 ⟨sorting sourced.1, ?_⟩
    rw [Relation.refusals]
    refine List.forall_mem_append.2 ⟨?_, ?_⟩ <;> split <;> simp [Refusal.details, shown]
  | triple info left b right =>
    obtain ⟨below, -, ⟨u, next, clean, joined⟩, -⟩ := sourced
    have shown : Within P b.text := within_boolean a joined clean
    have word : Within P b.connective.text := (within_append.1 shown).1
    refine List.forall_mem_append.2 ⟨sorting below, ?_⟩
    rw [Boolean.refusals]
    refine List.forall_mem_append.2 ⟨?_, ?_⟩ <;> split <;> simp [Refusal.details, shown, word]

end

/-- Each node of a tree is made of the tokens of its own part. -/
theorem Node.Sourced.of_mem_places {T : Token → Prop} {t : Node} {parent : Option Nat}
    {around : Scope} {place : Place} (h : t.Sourced T rules)
    (mem : place ∈ t.places parent around) : place.node.Sourced T rules := by
  induction t generalizing parent around with
  | clause info c => exact List.mem_singleton.1 mem ▸ h
  | triple info left b right ih ih' =>
    rcases List.mem_cons.1 mem with rfl | below
    · exact h
    · rcases List.mem_append.1 below with below | below
      · exact ih h.2.1 below
      · exact ih' h.2.2.2 below

/-- What a text is refused for, as a query or by a backend, is reported of the text itself. -/
theorem shows_of_refused {names : FieldNames} {source : String} {d : Diagnostic}
    (refused : (do let q ← parse rules source; q.compile names) = .error d) : d.Shows source := by
  cases read : parse rules source with
  | error e =>
    rw [read] at refused
    obtain rfl := Except.error.inj refused
    obtain ⟨f, attempted, rfl⟩ := parse_eq_error_iff_attempt.1 read
    exact ⟨rfl, fun P a clean => within_details a (within_cited_of_attempt a clean attempted)⟩
  | ok q =>
    rw [read] at refused
    have bare : ∀ c ∈ q.clauses, c.index.modifiers = [] := fun c hc =>
      ((root_wellFormed read).clauses c hc).2.1
    obtain ⟨r, first, rfl⟩ := (Query.compile_eq_error_iff bare).1 refused
    obtain ⟨place, mem, here⟩ := List.exists_of_findSome?_eq_some first
    obtain ⟨ts, p, lexed, spelled, -, rfl⟩ := parse_eq_ok.1 read
    refine ⟨rfl, fun P a clean => ?_⟩
    have tokens : ∀ t ∈ ts, Within P t.text := by
      have within := (Lexemes.within_ofText rules.wordChars clean).1
      rwa [lexed] at within
    have sourced := (spelled.sourced tokens (by simp)).build 0
    exact Node.within_refusals a (sourced.of_mem_places mem) r (List.mem_of_mem_head? here)

/-! ### Documents -/

/-- Escaping adds ASCII and takes nothing away. -/
theorem within_xmlText (a : Alphabet P) {s : String} : Within P (xmlText s) ↔ Within P s := by
  have entity : ∀ e ∈ entities, Within P e.1 ∧ Within P (String.singleton e.2) := by
    have printable : ∀ e ∈ entities, ∀ t ∈ [e.1, String.singleton e.2],
        t.toList.all (fun c => 0x20 ≤ c.toNat && c.toNat < 0x7F) = true := by
      decide
    exact fun e he => ⟨a.within_of_ascii (printable e he _ (by simp)),
      a.within_of_ascii (printable e he _ (by simp))⟩
  have char (c : Char) : (∀ d ∈ xmlChar c, P d) ↔ P c := by
    rcases xmlChar_eq c with ⟨-, -, plain⟩ | ⟨e, he, rfl, written⟩
    · rw [plain, List.forall_mem_singleton]
    · obtain ⟨front, self⟩ := entity e he
      rw [written]
      exact iff_of_true front (self e.2 (by simp))
  rw [Within, toList_xmlText, List.forall_mem_flatMap]
  exact forall₂_congr fun c _ => char c

/-- A document holds fixed lines, and what details and query hold. -/
theorem Diagnostic.within_xml (a : Alphabet P) (newline : P '\n') (d : Diagnostic) :
    Within P d.xml ↔ Within P d.details ∧ Within P d.query := by
  have ends : Within P "\n" := by simpa [Within] using newline
  have uri : Within P d.code.uri := by
    refine within_append.2 ⟨a.within_ascii (by decide), ?_⟩
    cases d.code <;> exact a.within_ascii (by decide)
  have message : Within P d.code.message := by cases d.code <;> exact a.within_ascii (by decide)
  have fixed {s : String} (all : s.toList.all (fun c => 0x20 ≤ c.toNat && c.toNat < 0x7F) = true) :
      Within P s ↔ True :=
    iff_true_intro (a.within_of_ascii all)
  rw [xml, within_join, List.forall_mem_map, xmlLines]
  simp (disch := decide +kernel) only [List.forall_mem_append, List.forall_mem_cons, within_append,
    within_xmlText a, fixed, ends, uri, message]
  split
  next empty =>
    have details : Within P d.details := by
      rw [String.isEmpty_iff.1 empty]
      exact within_empty
    simp [details]
  next => simp (disch := decide +kernel) [within_append, within_xmlText a, fixed]

/-! ### Characters that cannot be written -/

/-- Printable ASCII may be written. -/
theorem isXmlChar_of_printable {c : Char} (low : 0x20 ≤ c.toNat) (high : c.toNat < 0x7F) :
    isXmlChar c = true := by
  simp only [isXmlChar, Bool.or_eq_true, Bool.and_eq_true, decide_eq_true_eq]
  omega

/-- So may letters and digits of any script. -/
theorem isXmlChar_of_isAlphanumeric {c : Char} (h : isAlphanumeric c = true) :
    isXmlChar c = true := by
  have ranges : ∀ r ∈ alphanumericRanges,
      0x20 ≤ r.1 ∧ (r.2 ≤ 0xD7FF ∨ 0xE000 ≤ r.1 ∧ r.2 ≤ 0xFFFD ∨ 0x10000 ≤ r.1) := by
    decide +kernel
  obtain ⟨r, mem, low, high⟩ := Lexemes.covers_eq_true h
  have bounds := ranges r mem
  simp only [isXmlChar, Bool.or_eq_true, Bool.and_eq_true, decide_eq_true_eq]
  omega

/-- A report brings no character into a response that cannot stand there, only a query does. -/
theorem alphabet_ne {c : Char} (forbidden : isXmlChar c = false) : Alphabet (· ≠ c) where
  ascii d low high := by
    rintro rfl
    rw [isXmlChar_of_printable low high] at forbidden
    contradiction
  lower before d after other e he := by
    by_cases dotted : d = 'İ'
    · subst dotted
      rw [lowerChar_dotted] at he
      rintro rfl
      rcases List.mem_pair.1 he with rfl | rfl <;> exact absurd forbidden (by decide)
    · obtain ⟨f, one, -, lowered⟩ := lowerChar_eq before after dotted
      rw [one, List.mem_singleton] at he
      subst he
      rintro rfl
      rcases lowered with rfl | ⟨-, letter⟩
      · exact other rfl
      · rw [isXmlChar_of_isAlphanumeric letter] at forbidden
        contradiction

theorem within_ne_iff {c : Char} {s : String} : Within (· ≠ c) s ↔ c ∉ s.toList :=
  ⟨fun clean mem => clean c mem rfl, fun missing _ hx same => missing (same ▸ hx)⟩

/-- A character that may not be written is in the document if it is in the details or in the query.
    -/
theorem mem_xml_iff {c : Char} (forbidden : isXmlChar c = false) {d : Diagnostic} :
    c ∈ d.xml.toList ↔ c ∈ d.details.toList ∨ c ∈ d.query.toList := by
  have newline : '\n' ≠ c := by
    rintro rfl
    exact absurd forbidden (by decide)
  rw [← not_iff_not, not_or, ← within_ne_iff, ← within_ne_iff, ← within_ne_iff]
  exact d.within_xml (alphabet_ne forbidden) newline

/-- Whenever a text is refused, as a query or by a backend, the characters of the response that cannot
    stand in a document are those of the text. So the response can be read exactly if the text is made
    of characters of XML. -/
theorem xml_allowed_iff_of_refused {rules : Rules} {names : FieldNames} {source : String}
    {d : Diagnostic} (refused : (do let q ← parse rules source; q.compile names) = .error d) :
    (∀ c, isXmlChar c = false → (c ∈ d.xml.toList ↔ c ∈ source.toList)) ∧
      ((∀ c ∈ d.xml.toList, isXmlChar c = true) ↔ ∀ c ∈ source.toList, isXmlChar c = true) := by
  obtain ⟨query, details⟩ := shows_of_refused refused
  have held (c : Char) (forbidden : isXmlChar c = false) :
      c ∈ d.xml.toList ↔ c ∈ source.toList := by
    rw [mem_xml_iff forbidden, query, or_iff_right_iff_imp, ← not_imp_not]
    intro missing
    rw [← within_ne_iff] at missing ⊢
    exact details _ (alphabet_ne forbidden) missing
  refine ⟨held, ?_⟩
  constructor
  · intro document c mem
    by_contra forbidden
    rw [Bool.not_eq_true] at forbidden
    exact absurd (document c ((held c forbidden).2 mem)) (by simp [forbidden])
  · intro source c mem
    by_contra forbidden
    rw [Bool.not_eq_true] at forbidden
    exact absurd (source c ((held c forbidden).1 mem)) (by simp [forbidden])

/-- A relation that no backend knows is shown in lower case, where a dotted capital I becomes two
    characters. -/
theorem xml_allowed_of_dotted_relation : ∃ d,
    (do let q ← parse {} "a İ \"b&\""; q.compile {}) = .error d ∧ d.details = "i\u0307" ∧
      ∀ c ∈ d.xml.toList, isXmlChar c = true := by
  have refused : (do let q ← parse {} "a İ \"b&\""; q.compile {}) =
      .error ⟨.relation, "i\u0307", "a İ \"b&\""⟩ := by
    decide +kernel
  have characters : ∀ c ∈ "a İ \"b&\"".toList, isXmlChar c = true :=
    List.all_eq_true.1 (by decide +kernel)
  exact ⟨_, refused, rfl, (xml_allowed_iff_of_refused refused).2.2 characters⟩

/-- A control character is no part of a word, is found where a relation has to follow, and is shown
    with the query. -/
theorem not_xml_allowed_of_control : ∃ d,
    (do let q ← parse {} "cat \x01 dog"; q.compile {}) = .error d ∧
      d.details = "Expected Relation but got: \x01" ∧ '\x01' ∈ d.xml.toList ∧
      ¬∀ c ∈ d.xml.toList, isXmlChar c = true := by
  have refused : (do let q ← parse {} "cat \x01 dog"; q.compile {}) =
      .error ⟨.querySyntax, "Expected Relation but got: \x01", "cat \x01 dog"⟩ := by
    decide +kernel
  have held := (mem_xml_iff (c := '\x01') (d := ⟨.querySyntax, "Expected Relation but got: \x01",
    "cat \x01 dog"⟩) (by decide)).2 (.inl (by decide +kernel))
  exact ⟨_, refused, rfl, held, fun all => absurd (all _ held) (by decide)⟩

end ContextualQuery
