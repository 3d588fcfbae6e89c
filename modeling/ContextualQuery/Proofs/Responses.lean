import ContextualQuery.Diagnostic.Xml
import Mathlib.Data.List.Basic

/-! What a response tells of a diagnostic.

    Details and query are texts of somebody else. They stand in the response as running text, in which
    entities are written for all characters that mean something, and undoing the entities gives them
    back (`undo_xmlText`). So neither of them opens or closes an element, whatever it holds: each element
    stands at one place of the response, and what stands in it is told by the response alone.

        …<diag:uri>uri</diag:uri>…<diag:details>details</diag:details>…<query>query</query>… -/

namespace ContextualQuery

variable {c : Char} {cs ds mark : List Char} {s t xml name : String}

/-! ### Running text -/

/-- The entities of running text, and what they are written for. -/
def entities : List (String × Char) :=
  [("&lt;", '<'), ("&gt;", '>'), ("&amp;", '&'), ("&apos;", '\''), ("&quot;", '"')]

/-- Whether no tag starts in a text, and nothing but entities does at an ampersand. -/
structure IsRunning (s : String) : Prop where
  open_tag : '<' ∉ s.toList
  ampersand : ∀ front back, s.toList = front ++ '&' :: back →
    ∃ e ∈ entities, e.1.toList <+: '&' :: back

/-- Characters with their entities undone. -/
def undoEntities : List Char → List Char
  | '&' :: 'l' :: 't' :: ';' :: rest => '<' :: undoEntities rest
  | '&' :: 'g' :: 't' :: ';' :: rest => '>' :: undoEntities rest
  | '&' :: 'a' :: 'm' :: 'p' :: ';' :: rest => '&' :: undoEntities rest
  | '&' :: 'a' :: 'p' :: 'o' :: 's' :: ';' :: rest => '\'' :: undoEntities rest
  | '&' :: 'q' :: 'u' :: 'o' :: 't' :: ';' :: rest => '"' :: undoEntities rest
  | c :: rest => c :: undoEntities rest
  | [] => []

/-- A text with its entities undone. -/
def undoText (s : String) : String := String.ofList (undoEntities s.toList)

/-- A character stands for itself in running text, or an entity is written for it. -/
theorem xmlChar_eq (c : Char) : c ≠ '<' ∧ c ≠ '&' ∧ xmlChar c = [c] ∨
    ∃ e ∈ entities, e.2 = c ∧ xmlChar c = e.1.toList := by
  unfold xmlChar
  split
  case h_6 => exact .inl ⟨‹_›, ‹_›, rfl⟩
  all_goals exact .inr (by decide)

/-- An entity has an ampersand at its start and nowhere else. -/
theorem entity_eq {e : String × Char} (mem : e ∈ entities) :
    ∃ name, e.1.toList = '&' :: name ∧ '&' ∉ name ∧ '<' ∉ name := by
  have all : ∀ e ∈ entities, e.1.toList = '&' :: e.1.toList.tail ∧ '&' ∉ e.1.toList.tail ∧
      '<' ∉ e.1.toList.tail := by
    decide
  exact ⟨_, all e mem⟩

theorem toList_xmlText (s : String) : (xmlText s).toList = s.toList.flatMap xmlChar :=
  String.toList_ofList

/-- Escaped text holds no `<`, so no tag starts in it. -/
theorem not_mem_xmlText (s : String) : '<' ∉ (xmlText s).toList := by
  rw [toList_xmlText, List.mem_flatMap]
  rintro ⟨c, -, mem⟩
  rcases xmlChar_eq c with ⟨other, -, plain⟩ | ⟨e, he, -, entity⟩
  · rw [plain, List.mem_singleton] at mem
    exact other mem.symm
  · obtain ⟨name, text, -, free⟩ := entity_eq he
    rw [entity, text, List.mem_cons] at mem
    exact mem.elim (by decide) free

/-- By induction on the text: a `&` was written by `xmlChar`, at the start of one of the entities.
    -/
theorem entity_of_ampersand {front back : List Char}
    (h : cs.flatMap xmlChar = front ++ '&' :: back) : ∃ e ∈ entities, e.1.toList <+: '&' :: back := by
  induction cs generalizing front with
  | nil => simp at h
  | cons c cs ih =>
    rw [List.flatMap_cons] at h
    rcases xmlChar_eq c with ⟨-, other, plain⟩ | ⟨e, he, -, entity⟩
    · rw [plain, List.singleton_append] at h
      cases front with
      | nil => exact absurd (List.cons.inj h).1 other
      | cons _ front => exact ih (List.cons.inj h).2
    · obtain ⟨name, text, free, -⟩ := entity_eq he
      rw [entity, text, List.cons_append] at h
      cases front with
      | nil => exact ⟨e, he, by rw [text, ← List.nil_append ('&' :: back), ← h]; simp⟩
      | cons _ front =>
        -- the ampersand is behind the name of the entity, which has none
        rcases List.append_eq_append_iff.1 (List.cons.inj h).2 with ⟨_, -, later⟩ | ⟨inner, rfl, later⟩
        · exact ih later
        · cases inner with
          | nil =>
            have starts : cs.flatMap xmlChar = [] ++ '&' :: back := by simpa using later.symm
            exact ih starts
          | cons x inner =>
            obtain ⟨rfl, -⟩ := List.cons.inj later
            simp at free

/-- What is written for a text is running text. -/
theorem isRunning_xmlText (s : String) : IsRunning (xmlText s) where
  open_tag := not_mem_xmlText s
  ampersand _ _ h := entity_of_ampersand ((toList_xmlText s).symm.trans h)

/-- A character in front of what is undone is undone by itself. -/
theorem undo_xmlChar (c : Char) (cs : List Char) :
    undoEntities (xmlChar c ++ cs) = c :: undoEntities cs := by
  rcases xmlChar_eq c with ⟨-, other, plain⟩ | ⟨e, he, rfl, entity⟩
  · rw [plain, List.singleton_append, undoEntities] <;> (intros; simp_all)
  · rw [entity]
    simp only [entities, List.mem_cons, List.not_mem_nil, or_false] at he
    rcases he with rfl | rfl | rfl | rfl | rfl <;> rfl

/-- Undoing the entities gives a text back. -/
theorem undo_xmlText (s : String) : undoText (xmlText s) = s := by
  have chars (cs : List Char) : undoEntities (cs.flatMap xmlChar) = cs := by
    induction cs with
    | nil => rfl
    | cons c cs ih => rw [List.flatMap_cons, undo_xmlChar, ih]
  rw [undoText, toList_xmlText, chars, String.ofList_toList]

/-- Two texts are told apart by what is written of them. -/
theorem eq_of_xmlText_eq (h : xmlText s = xmlText t) : s = t := by
  rw [← undo_xmlText s, h, undo_xmlText t]

/-! ### Elements -/

/-- The tag in front of what is in an element. -/
def openTag (name : String) : String := "<" ++ name ++ ">"

/-- The tag behind what is in an element. -/
def closeTag (name : String) : String := "</" ++ name ++ ">"

/-- Whether a text stands in a document between the tags of a name. -/
def Between (name xml text : String) : Prop :=
  ∃ front back, xml = front ++ openTag name ++ text ++ closeTag name ++ back

/-- Whether a document holds a text between the tags of a name, and nothing else: what stands there is
    running text and gives the text back when its entities are undone. -/
def Holds (name xml text : String) : Prop :=
  (∃ t, Between name xml t) ∧ ∀ t, Between name xml t → IsRunning t ∧ undoText t = text

/-- Whether a mark is a tag: an opening bracket, and no other one behind it. -/
def IsTag (mark : List Char) : Prop := ∃ inner, mark = '<' :: inner ∧ '<' ∉ inner

theorem isTag_openTag (letters : '<' ∉ name.toList) : IsTag (openTag name).toList :=
  ⟨name.toList ++ ['>'], by simp [openTag], by simpa using letters⟩

theorem isTag_closeTag (letters : '<' ∉ name.toList) : IsTag (closeTag name).toList :=
  ⟨'/' :: (name.toList ++ ['>']), by simp [closeTag], by simpa using letters⟩

/-- Whether a mark starts nowhere in a text, whatever follows the text. -/
def Avoids (mark cs : List Char) : Prop :=
  ∀ rest front back, cs ++ rest = front ++ (mark ++ back) → cs <+: front

namespace Avoids

theorem nil : Avoids mark [] := fun _ _ _ _ => List.nil_prefix

/-- A tag that may start in neither piece starts in neither once they are joined, wherever it would
    reach over the seam. -/
theorem append (h : Avoids mark cs) (h' : Avoids mark ds) : Avoids mark (cs ++ ds) := by
  intro rest front back same
  rw [List.append_assoc] at same
  obtain ⟨front, rfl⟩ := h _ _ _ same
  rw [List.append_assoc, List.append_cancel_left_eq] at same
  exact (List.prefix_append_right_inj cs).2 (h' _ _ _ same)

/-- One character in front, at which the tag does not start either. -/
theorem cons (here : ∀ rest, ¬mark <+: c :: (cs ++ rest)) (h : Avoids mark cs) :
    Avoids mark (c :: cs) := by
  intro rest front back same
  cases front with
  | nil => exact absurd ⟨back, same.symm⟩ (here rest)
  | cons d front =>
    obtain ⟨rfl, later⟩ := List.cons.inj same
    exact List.cons_prefix_cons.2 ⟨rfl, h rest front back later⟩

/-- No tag starts in a text without an opening bracket. -/
theorem of_not_mem (tag : IsTag mark) (free : '<' ∉ cs) : Avoids mark cs := by
  obtain ⟨inner, rfl, -⟩ := tag
  induction cs with
  | nil => exact nil
  | cons c cs ih =>
    rw [List.mem_cons, not_or] at free
    exact .cons (fun rest h => free.1 (List.cons_prefix_cons.1 h).1) (ih free.2)

/-- A text that avoids a tag is not cut in two by it. -/
theorem ne_append (h : Avoids mark cs) (some_char : mark ≠ []) (front back : List Char) :
    cs ≠ front ++ (mark ++ back) := by
  intro same
  have shorter := (h [] front back (by rwa [List.append_nil])).length_le
  have longer := congrArg List.length same
  simp only [List.length_append] at longer
  have := List.length_pos_iff.2 some_char
  omega

/-- A tag that is avoided in front of a place and behind it stands there only. -/
theorem eq_of_append_eq (before : Avoids mark cs) (tag : IsTag mark) (behind : Avoids mark ds)
    {front back : List Char} (same : cs ++ (mark ++ ds) = front ++ (mark ++ back)) :
    cs = front ∧ ds = back := by
  obtain ⟨later, rfl⟩ := before _ _ _ same
  rw [List.append_assoc, List.append_cancel_left_eq] at same
  cases later with
  | nil => exact ⟨(List.append_nil cs).symm, List.append_cancel_left same⟩
  | cons c later =>
    obtain ⟨inner, rfl, free⟩ := tag
    have inside := (of_not_mem ⟨inner, rfl, free⟩ free).append behind
    exact absurd (List.cons.inj same).2 (inside.ne_append (by simp) _ _)

end Avoids

/-- Whether a mark differs at each place of a text from what stands there. -/
def avoids? (mark : List Char) : List Char → Bool
  | [] => true
  | c :: cs => !mark.isPrefixOf (c :: cs) && !(c :: cs).isPrefixOf mark && avoids? mark cs

/-- The check goes through all places of a text. -/
theorem avoids_of_avoids? (h : avoids? mark cs = true) : Avoids mark cs := by
  induction cs with
  | nil => exact .nil
  | cons c cs ih =>
    simp only [avoids?, Bool.and_eq_true, Bool.not_eq_true', ← Bool.not_eq_true,
      List.isPrefixOf_iff_prefix] at h
    obtain ⟨⟨longer, shorter⟩, later⟩ := h
    refine .cons (fun rest starts => ?_) (ih later)
    have whole : c :: cs <+: c :: (cs ++ rest) := List.prefix_append (c :: cs) rest
    exact (List.prefix_or_prefix_of_prefix starts whole).elim longer shorter

/-- Whether the tags of a name start nowhere in a text. -/
def Untagged (name text : String) : Prop :=
  Avoids (openTag name).toList text.toList ∧ Avoids (closeTag name).toList text.toList

/-- Whether the tags of a name differ at each place of a text from what stands there. -/
def untagged? (name text : String) : Bool :=
  avoids? (openTag name).toList text.toList && avoids? (closeTag name).toList text.toList

/-- Whether the tags of a name differ at each place of some characters from what stands there. -/
def untaggedChars? (name : String) (cs : List Char) : Bool :=
  avoids? (openTag name).toList cs && avoids? (closeTag name).toList cs

namespace Untagged

/-- Neither tag of an element starts in two texts, one behind the other. -/
theorem append (h : Untagged name s) (h' : Untagged name t) : Untagged name (s ++ t) := by
  rw [Untagged, String.toList_append]
  exact ⟨h.1.append h'.1, h.2.append h'.2⟩

/-- Without a `<` no tag starts anywhere. -/
theorem of_not_mem (letters : '<' ∉ name.toList) (free : '<' ∉ s.toList) : Untagged name s :=
  ⟨.of_not_mem (isTag_openTag letters) free, .of_not_mem (isTag_closeTag letters) free⟩

theorem of_untagged? (h : untagged? name s = true) : Untagged name s := by
  rw [untagged?, Bool.and_eq_true] at h
  exact h.imp avoids_of_avoids? avoids_of_avoids?

theorem of_untaggedChars? (h : untaggedChars? name cs = true) : Untagged name (String.ofList cs) :=
  of_untagged? (by rwa [untagged?, String.toList_ofList])

/-- An element is not found where its tags do not start. -/
theorem not_between (h : Untagged name xml) (text : String) : ¬Between name xml text := by
  rintro ⟨front, back, rfl⟩
  refine h.1.ne_append (by simp [openTag]) front.toList
    (text.toList ++ ((closeTag name).toList ++ back.toList)) ?_
  simp

/-- An element whose tags stand nowhere else is the only one of its name. -/
theorem between_iff {front text back : String} (before : Untagged name front)
    (letters : '<' ∉ name.toList) (closing : Avoids (openTag name).toList (closeTag name).toList)
    (inside : '<' ∉ text.toList) (behind : Untagged name back) :
    Between name (front ++ openTag name ++ text ++ closeTag name ++ back) t ↔ t = text := by
  constructor
  · rintro ⟨front', back', same⟩
    have chars := congrArg String.toList same
    simp only [String.toList_append, List.append_assoc] at chars
    have inner := of_not_mem letters inside
    obtain ⟨-, rest⟩ := before.1.eq_of_append_eq (isTag_openTag letters)
      (inner.1.append (closing.append behind.1)) chars
    obtain ⟨same, -⟩ := inner.2.eq_of_append_eq (isTag_closeTag letters) behind.2 rest
    exact String.toList_injective same.symm
  · rintro rfl
    exact ⟨front, back, rfl⟩

end Untagged

/-! ### Lines -/

/-- The names of the elements that hold what a diagnostic tells. -/
def elementNames : List String := ["diag:uri", "diag:details", "diag:message", "query"]

/-- A line of a response: one that is the same in all of them, or an element with a text. -/
inductive ResponseLine where | fixed (text : String) | element (indent name text : String)

/-- How a line is written. -/
def ResponseLine.text : ResponseLine → String
  | fixed text => text
  | element indent name text => indent ++ openTag name ++ text ++ closeTag name

/-- The lines of the response that reports a diagnostic. -/
def Diagnostic.responseLines (d : Diagnostic) : List ResponseLine :=
  [.fixed "<?xml version=\"1.0\" encoding=\"UTF-8\"?>",
    .fixed ("<searchRetrieveResponse xmlns=\"http://www.loc.gov/zing/srw/\"" ++
      " xmlns:diag=\"http://www.loc.gov/zing/srw/diagnostic/\">"),
    .fixed "  <version>1.1</version>",
    .fixed "  <numberOfRecords>0</numberOfRecords>",
    .fixed "  <diagnostics>",
    .fixed "    <diag:diagnostic>",
    .element "      " "diag:uri" d.code.uri] ++
  (if d.details.isEmpty then [] else [.element "      " "diag:details" (xmlText d.details)]) ++
  [.element "      " "diag:message" (xmlText d.code.message),
    .fixed "    </diag:diagnostic>",
    .fixed "  </diagnostics>",
    .fixed "  <echoedSearchRetrieveRequest>",
    .fixed "    <version>1.1</version>",
    .element "    " "query" (xmlText d.query),
    .fixed "  </echoedSearchRetrieveRequest>",
    .fixed "</searchRetrieveResponse>"]

/-- The lines of a response, told apart into fixed ones and elements. -/
theorem Diagnostic.xmlLines_eq (d : Diagnostic) :
    d.xmlLines = d.responseLines.map ResponseLine.text := by
  rw [xmlLines, responseLines, List.map_append, List.map_append]
  split <;> rfl

/-- Whether a line holds no other tags of elements than its own. -/
def ResponseLine.Sound : ResponseLine → Prop
  | fixed text => ∀ name ∈ elementNames, Untagged name text
  | element indent name text => name ∈ elementNames ∧ '<' ∉ indent.toList ∧ '<' ∉ text.toList

/-- The names of the four elements are letters and colons. -/
theorem letters_of_mem (mem : name ∈ elementNames) : '<' ∉ name.toList := by
  have all : ∀ name ∈ elementNames, '<' ∉ name.toList := by decide
  exact all name mem

/-- Different elements have different tags. -/
theorem untagged_tags {other : String} (mem : name ∈ elementNames) (mem' : other ∈ elementNames)
    (differ : name ≠ other) : Untagged name (openTag other) ∧ Untagged name (closeTag other) := by
  have all : ∀ name ∈ elementNames, ∀ other ∈ elementNames, name ≠ other →
      untagged? name (openTag other) = true ∧ untagged? name (closeTag other) = true := by
    decide +kernel
  exact (all name mem other mem' differ).imp .of_untagged? .of_untagged?

/-! ### Documents -/

namespace ResponseLine

/-- The name of the element that a line holds. -/
def name? : ResponseLine → Option String
  | fixed _ => none
  | element _ name _ => some name

/-- Lines one below the other. -/
def write (ls : List ResponseLine) : String := String.join (ls.map fun l => l.text ++ "\n")

theorem write_cons (l : ResponseLine) (ls : List ResponseLine) :
    write (l :: ls) = l.text ++ "\n" ++ write ls := by
  apply String.toList_injective
  simp [write]

theorem write_append (ls ms : List ResponseLine) : write (ls ++ ms) = write ls ++ write ms := by
  apply String.toList_injective
  simp [write]

/-- A line that is another element, or fixed, holds no tag of this one. -/
theorem Sound.untagged {l : ResponseLine} (sound : l.Sound) (mem : name ∈ elementNames)
    (other : l.name? ≠ some name) : Untagged name l.text := by
  cases l with
  | fixed text => exact sound name mem
  | element indent name' text =>
    obtain ⟨mem', indented, inside⟩ := sound
    obtain ⟨opens, closes⟩ := untagged_tags mem mem' fun same => other (same ▸ rfl)
    have letters := letters_of_mem mem
    exact (((Untagged.of_not_mem letters indented).append opens).append
      (.of_not_mem letters inside)).append closes

/-- So do all lines together: a tag does not reach over the end of a line. -/
theorem untagged_write {ls : List ResponseLine} (sound : ∀ l ∈ ls, l.Sound)
    (mem : name ∈ elementNames) (none : name ∉ ls.filterMap name?) : Untagged name (write ls) := by
  have letters := letters_of_mem mem
  induction ls with
  | nil => exact .of_not_mem letters (by simp [write])
  | cons l ls ih =>
    rw [List.forall_mem_cons] at sound
    have other : l.name? ≠ some name := fun same => none (by simp [same])
    rw [write_cons]
    refine ((sound.1.untagged mem other).append (.of_not_mem letters (by simp))).append
      (ih sound.2 fun later => none ?_)
    rw [List.mem_filterMap] at later ⊢
    exact later.imp fun l => .imp_left (List.mem_cons_of_mem _)

/-- An opening tag does not start inside the closing one: `<query>` is no part of `</query>`. -/
theorem avoids_closeTag (mem : name ∈ elementNames) :
    Avoids (openTag name).toList (closeTag name).toList := by
  have all : ∀ name ∈ elementNames,
      avoids? (openTag name).toList (closeTag name).toList = true := by
    decide +kernel
  exact avoids_of_avoids? (all name mem)

/-- Around the one line of an element its tags do not occur. -/
theorem between_write_middle {before after : List ResponseLine} {indent text : String}
    (sound : ∀ l ∈ before ++ element indent name text :: after, l.Sound)
    (mem : name ∈ elementNames) (none : name ∉ before.filterMap name?)
    (none' : name ∉ after.filterMap name?) :
    Between name (write (before ++ element indent name text :: after)) t ↔ t = text := by
  rw [List.forall_mem_append, List.forall_mem_cons] at sound
  obtain ⟨sound, ⟨-, indented, inside⟩, sound'⟩ := sound
  have letters := letters_of_mem mem
  have split : write (before ++ element indent name text :: after) =
      write before ++ indent ++ openTag name ++ text ++ closeTag name ++ ("\n" ++ write after) := by
    simp only [write_append, write_cons, ResponseLine.text, String.append_assoc]
  have front : Untagged name (write before ++ indent) :=
    (untagged_write sound mem none).append (.of_not_mem letters indented)
  have behind : Untagged name ("\n" ++ write after) :=
    (Untagged.of_not_mem letters (by simp)).append (untagged_write sound' mem none')
  rw [split, front.between_iff letters (avoids_closeTag mem) inside behind]

/-- Where each element stands in one line at most, what is between the tags of a name is what its
    element holds. -/
theorem between_write {ls : List ResponseLine} (sound : ∀ l ∈ ls, l.Sound)
    (once : (ls.filterMap name?).Nodup) (mem : name ∈ elementNames) :
    Between name (write ls) t ↔ ∃ indent, element indent name t ∈ ls := by
  have stands {ls : List ResponseLine} {indent : String} (hl : element indent name t ∈ ls) :
      name ∈ ls.filterMap name? := List.mem_filterMap.2 ⟨_, hl, rfl⟩
  by_cases some_line : name ∈ ls.filterMap name?
  · obtain ⟨l, hl, named⟩ := List.mem_filterMap.1 some_line
    cases l with
    | fixed text => cases named
    | element indent name' text =>
      obtain rfl := Option.some.inj named
      obtain ⟨before, after, rfl⟩ := List.append_of_mem hl
      rw [List.filterMap_append, List.filterMap_cons_some named, List.perm_middle.nodup_iff,
        List.nodup_cons, List.mem_append, not_or] at once
      obtain ⟨⟨none, none'⟩, -⟩ := once
      rw [between_write_middle sound mem none none']
      constructor
      · rintro rfl
        exact ⟨indent, hl⟩
      · rintro ⟨indent', hl'⟩
        rw [List.mem_append, List.mem_cons] at hl'
        rcases hl' with here | here | here
        · exact absurd (stands here) none
        · exact (element.inj here).2.2
        · exact absurd (stands here) none'
  · have untagged := untagged_write sound mem some_line
    refine iff_of_false (untagged.not_between t) ?_
    rintro ⟨indent, hl⟩
    exact some_line (stands hl)

end ResponseLine

/-! ### Responses -/

namespace Diagnostic

theorem xml_eq (d : Diagnostic) : d.xml = ResponseLine.write d.responseLines := by
  rw [xml, xmlLines_eq, List.map_map]
  rfl

/-- `info:srw/diagnostic/1/` and a number. -/
theorem not_mem_uri (c : DiagnosticCode) : '<' ∉ c.uri.toList := by
  have digits : '<' ∉ Nat.toDigits 10 c.number := fun mem =>
    absurd (Nat.isDigit_of_mem_toDigits (by omega) (by omega) mem) (by decide)
  have text : c.uri.toList = "info:srw/diagnostic/1/".toList ++ Nat.toDigits 10 c.number :=
    String.toList_append.trans (congrArg _ Nat.toList_repr)
  rw [text, List.mem_append, not_or]
  exact ⟨by simp, digits⟩

/-- The fixed lines are checked one by one; what elements hold is escaped text or a URI. -/
theorem sound_responseLines (d : Diagnostic) : ∀ l ∈ d.responseLines, l.Sound := by
  have fixed {cs : List Char} (h : elementNames.all (untaggedChars? · cs) = true) :
      (ResponseLine.fixed (String.ofList cs)).Sound :=
    fun name mem => .of_untaggedChars? (List.all_eq_true.1 h name mem)
  have element {indent name text : String} (mem : name ∈ elementNames)
      (indented : '<' ∉ indent.toList) (inside : '<' ∉ text.toList) :
      (ResponseLine.element indent name text).Sound := ⟨mem, indented, inside⟩
  have running (text : String) := not_mem_xmlText text
  simp only [responseLines, List.forall_mem_append, List.forall_mem_cons]
  refine ⟨⟨⟨?_, ?_, ?_, ?_, ?_, ?_, ?_, by simp⟩, ?_⟩, ?_, ?_, ?_, ?_, ?_, ?_, ?_, ?_, by simp⟩
  case refine_2 =>
    intro name mem
    apply Untagged.append
    · exact fixed (by decide +kernel) name mem
    · exact fixed (by decide +kernel) name mem
  case refine_7 => exact element (by decide) (by decide) (not_mem_uri d.code)
  case refine_8 =>
    split
    · simp
    · simpa using element (by decide) (by decide) (running d.details)
  case refine_9 => exact element (by decide) (by decide) (running d.code.message)
  case refine_14 => exact element (by decide) (by decide) (running d.query)
  all_goals exact fixed (by decide +kernel)

/-- Each element is there once at most, `diag:details` only if there is something to tell. -/
theorem once_responseLines (d : Diagnostic) :
    (d.responseLines.filterMap ResponseLine.name?).Nodup := by
  have names : d.responseLines.filterMap ResponseLine.name? =
      "diag:uri" :: (if d.details.isEmpty then [] else ["diag:details"]) ++
        ["diag:message", "query"] := by
    unfold responseLines
    split <;> rfl
  rw [names]
  split <;> decide

/-- An element holds what its line holds, as no other line has its tags. -/
theorem between_xml {d : Diagnostic} (mem : name ∈ elementNames) :
    Between name d.xml t ↔ ∃ indent, .element indent name t ∈ d.responseLines := by
  rw [xml_eq]
  exact ResponseLine.between_write d.sound_responseLines d.once_responseLines mem

/-- The query is read off the response. -/
theorem between_query {d : Diagnostic} : Between "query" d.xml t ↔ t = xmlText d.query := by
  rw [between_xml (by decide)]
  unfold responseLines
  split <;> simp

/-- So are the details, unless there are none. -/
theorem between_details {d : Diagnostic} :
    Between "diag:details" d.xml t ↔ d.details ≠ "" ∧ t = xmlText d.details := by
  rw [between_xml (by decide)]
  unfold responseLines
  split <;> simp_all

/-- And the number of the diagnostic. -/
theorem between_uri {d : Diagnostic} : Between "diag:uri" d.xml t ↔ t = d.code.uri := by
  rw [between_xml (by decide)]
  unfold responseLines
  split <;> simp

/-- The six codes have six numbers. -/
theorem code_of_number {c c' : DiagnosticCode} (h : c.number = c'.number) : c = c' := by
  have found (c : DiagnosticCode) : DiagnosticCode.ofNumber? c.number = some c := by
    cases c <;> rfl
  exact Option.some.inj ((found c).symm.trans (h ▸ found c'))

theorem code_of_uri {c c' : DiagnosticCode} (h : c.uri = c'.uri) : c = c' := by
  have texts : toString c.number = toString c'.number :=
    (String.append_right_inj "info:srw/diagnostic/1/").1 h
  have digits := congrArg String.toList texts
  have numbers := congrArg (Nat.ofDigitChars 10 · 0) digits
  exact code_of_number (by simpa [Nat.toString_eq_ofList_toDigits] using numbers)

/-- Code, details and query of a diagnostic are between tags of its response. -/
theorem eq_of_xml_eq {d e : Diagnostic} (h : d.xml = e.xml) : d = e := by
  have code : d.code = e.code := code_of_uri (between_uri.1 (h ▸ between_uri.2 rfl))
  have query : d.query = e.query := eq_of_xmlText_eq (between_query.1 (h ▸ between_query.2 rfl))
  have given {d e : Diagnostic} (h : d.xml = e.xml) (some_detail : d.details ≠ "") :
      d.details = e.details :=
    eq_of_xmlText_eq (between_details.1 (h ▸ between_details.2 ⟨some_detail, rfl⟩)).2
  have details : d.details = e.details := by
    by_cases none : d.details = ""
    · by_contra differ
      exact differ (given h.symm fun none' => differ (none.trans none'.symm)).symm
    · exact given h none
  cases d
  cases e
  simp_all

/-- A response holds the query and the details, if there are any, as running text, whatever they are,
    and nothing else stands between their tags. No other diagnostic has the same response. -/
theorem told_by_xml (d : Diagnostic) :
    Holds "query" d.xml d.query ∧
      (if d.details = "" then ∀ t, ¬Between "diag:details" d.xml t
        else Holds "diag:details" d.xml d.details) ∧
      ∀ e : Diagnostic, e.xml = d.xml ↔ e = d := by
  refine ⟨⟨⟨_, between_query.2 rfl⟩, fun t ht => ?_⟩, ?_, fun e => ⟨eq_of_xml_eq, fun h => h ▸ rfl⟩⟩
  · obtain rfl := between_query.1 ht
    exact ⟨isRunning_xmlText d.query, undo_xmlText d.query⟩
  · split
    next none => exact fun t ht => (between_details.1 ht).1 none
    next some_detail =>
      refine ⟨⟨_, between_details.2 ⟨some_detail, rfl⟩⟩, fun t ht => ?_⟩
      obtain ⟨-, rfl⟩ := between_details.1 ht
      exact ⟨isRunning_xmlText d.details, undo_xmlText d.details⟩

end Diagnostic

end ContextualQuery
