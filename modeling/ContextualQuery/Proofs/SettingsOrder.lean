import ContextualQuery.Proofs.Loading
import Mathlib.Logic.Relation

/-! The order of members in a settings text.

    Members of different names may change places in any object of a settings text, and members whose
    names are not known may be added to a record (`Part.Edit`). Each such edit keeps what is loaded
    (`alike_of_edit`), so any number of them does, however JSON text is read (`Json.Codec`).

    Short names are the same in any case, but they are bound in the order of the names as they are
    written. So the greatest of those that are the same in lower case counts (`get?_prefixes_iff`):

        { "dc": "2", "DC": "1", "Dc": "3" }        binds DC, Dc, dc to 1, 3, 2, in this order;
                                               every lookup of any of them gives 2 -/

namespace ContextualQuery.Settings

open Json (Codec Document Defect)
open Unicode (lowercase)

/-! ### Edits -/

/-- The objects of a settings text. -/
inductive Part where | settings | rules | dictionary

/-- The names that a part knows. A dictionary knows every name. -/
def Part.names? : Part → Option (List String)
  | .settings => some ["parser", "dc_mapping", "backend_mapping"]
  | .rules => some ["error_on_empty_term", "error_on_quoted_identifier", "error_on_duplicate_prefix",
      "word_chars", "default_prefixes", "max_depth"]
  | .dictionary => none

/-- The members of a part that are parts themselves. -/
def Part.member? : Part → String → Option Part
  | .settings, "parser" => some .rules
  | .settings, "dc_mapping" => some .dictionary
  | .settings, "backend_mapping" => some .dictionary
  | .rules, "default_prefixes" => some .dictionary
  | _, _ => none

/-- Edits of a part that make no difference: members of different names change places, a member whose
    name is not known is added, or a member that is a part itself is edited. -/
inductive Part.Edit : Part → Document → Document → Prop
  | reorder {part : Part} {members members' : List Member} (distinct : (members.map (·.1)).Nodup)
      (perm : members.Perm members') : part.Edit (.object members none) (.object members' none)
  | add {part : Part} {names name value} (before after : List Member)
      (record : part.names? = some names) (unknown : name ∉ names) (sound : value.defect? = none) :
      part.Edit (.object (before ++ after) none) (.object (before ++ (.ok name, value) :: after) none)
  | inside {part part' : Part} {name value value'} (before after : List Member)
      (known : part.member? name = some part') (edit : part'.Edit value value') :
      part.Edit (.object (before ++ (.ok name, value) :: after) none)
        (.object (before ++ (.ok name, value') :: after) none)

/-- What is loaded from a part. -/
abbrev Part.Value : Part → Type
  | .settings => Settings
  | .rules => Rules
  | .dictionary => Dictionary

def Part.load : (part : Part) → Document → Load part.Value
  | .settings => loadRecord .settings settingsFields {}
  | .rules => loadRecord .rules rulesFields {}
  | .dictionary => loadDictionary

/-- An edit that makes no difference makes none to what is loaded. -/
theorem alike_of_edit {part : Part} {d d' : Document} (edit : part.Edit d d') :
    Alike part.load d d' := by
  induction edit with
  | @reorder part members members' distinct perm =>
    intro b loaded
    cases part with
    | settings => exact loadMembers_perm commutes_settingsFields perm loaded
    | rules => exact loadMembers_perm commutes_rulesFields perm loaded
    | dictionary =>
      have apart : members.Pairwise fun x y => x.1 ≠ y.1 := List.pairwise_map.1 distinct
      have folds := (loadBindings_eq_ok.1 loaded).perm Ne.symm Binds.exchange perm apart
      exact loadBindings_eq_ok.2 folds
  | @add part _ _ _ _ _ record unknown sound =>
    intro b loaded
    cases part with
    | settings =>
      cases record
      have unknown := @find?_eq_none_of_names _ settingsFields _ unknown
      exact loadMembers_insert commutes_settingsFields unknown sound loaded
    | rules =>
      cases record
      have unknown := @find?_eq_none_of_names _ rulesFields _ unknown
      exact loadMembers_insert commutes_rulesFields unknown sound loaded
    | dictionary => cases record
  -- The four members that hold objects: the rules, both dictionaries, and short names inside the
  -- rules.
  | @inside part part' _ _ _ _ _ known _ alike =>
    intro b loaded
    unfold Part.member? at known
    split at known <;> cases known
    · exact loadMembers_replace commutes_settingsFields rfl (alike_of_set alike) loaded
    · exact loadMembers_replace commutes_settingsFields rfl (alike_of_set alike) loaded
    · exact loadMembers_replace commutes_settingsFields rfl (alike_of_set alike) loaded
    · exact loadMembers_replace commutes_rulesFields rfl (alike_of_set (alike_loadPrefixes alike))
        loaded

theorem alike_of_edits {part : Part} {d d' : Document} (edits : Relation.ReflTransGen part.Edit d d') :
    Alike part.load d d' := by
  induction edits with
  | refl => exact fun _ loaded => loaded
  | tail _ edit ih => exact fun b loaded => alike_of_edit edit b (ih b loaded)

/-! ### Short names that differ in case -/

/-- What a list of pairs says of a name as it is written is what the last pair of that name says. -/
theorem get?_ofList_pairs (pairs : List (String × String)) (k : String) :
    (Dictionary.ofList pairs).get? k = pairs.reverse.lookup k := by
  suffices known : ∀ d : Dictionary, (pairs.foldl (fun d p => d.insert p.1 p.2) d).get? k =
      (pairs.reverse.lookup k).or (d.get? k) by
    simpa [Dictionary.ofList, Dictionary.get?_empty] using known .empty
  intro d
  induction pairs generalizing d with
  | nil => simp
  | cons p pairs ih =>
    rw [List.foldl_cons, ih, Dictionary.get?_insert, List.reverse_cons, List.lookup_append,
      Option.or_assoc, Dictionary.lookup_cons_entry]
    split <;> simp

/-- Whether a pair decides what its name is bound to: it is the last pair of the name as it is written,
    and no greater name of the list is the same in lower case. -/
structure Decides (pairs : List (String × String)) (name identifier : String) : Prop where
  last : pairs.reverse.lookup name = some identifier
  greatest : ∀ p ∈ pairs, lowercase p.1 = lowercase name → p.1 ≤ name

section
variable {pairs : List (String × String)} {n name name' identifier identifier' : String}

theorem mem_entries_ofList {p : String × String} :
    p ∈ (Dictionary.ofList pairs).entries ↔ pairs.reverse.lookup p.1 = some p.2 := by
  rw [← get?_ofList_pairs]
  exact (Dictionary.ofList pairs).mem_entries_iff

theorem exists_mem_entries {p : String × String} (mem : p ∈ pairs) :
    ∃ i, (p.1, i) ∈ (Dictionary.ofList pairs).entries := by
  have bound : (pairs.reverse.lookup p.1).isSome = true :=
    List.lookup_isSome_iff.2 ⟨p, List.mem_reverse.2 mem, by simp⟩
  obtain ⟨i, bound⟩ := Option.isSome_iff_exists.1 bound
  exact ⟨i, mem_entries_ofList.2 bound⟩

theorem Decides.mem (h : Decides pairs name identifier) : (name, identifier) ∈ pairs :=
  List.mem_reverse.1 (Dictionary.mem_of_lookup h.last)

/-- Of the names that are the same in lower case one decides. -/
theorem Decides.unique (h : Decides pairs name identifier) (h' : Decides pairs name' identifier')
    (same : lowercase name = lowercase name') : identifier = identifier' := by
  have le : name ≤ name' := h'.greatest _ h.mem same
  have ge : name' ≤ name := h.greatest _ h'.mem same.symm
  obtain rfl := String.le_antisymm le ge
  exact Option.some.inj (h.last.symm.trans h'.last)

/-- The entry that is found for a name is that of the greatest name. -/
theorem decides_of_find? {p : String × String}
    (found : (Dictionary.ofList pairs).entries.reverse.find? (fun q => lowercase n = lowercase q.1) =
      some p) : lowercase p.1 = lowercase n ∧ Decides pairs p.1 p.2 := by
  obtain ⟨same, greater, less, split, others⟩ := List.find?_eq_some_iff_append.1 found
  have same : lowercase n = lowercase p.1 := of_decide_eq_true same
  have descending : (greater ++ p :: less).Pairwise fun q q' => q'.1 < q.1 := by
    rw [← split, List.pairwise_reverse]
    exact (Dictionary.ofList pairs).ascending
  have mem {q : String × String} :
      q ∈ (Dictionary.ofList pairs).entries ↔ q ∈ greater ++ p :: less := by
    rw [← split, List.mem_reverse]
  refine ⟨same.symm, mem_entries_ofList.1 (mem.2 (by simp)), fun q hq same' => ?_⟩
  obtain ⟨i, bound⟩ := exists_mem_entries hq
  obtain before | here := List.mem_append.1 (mem.1 bound)
  · have other := others _ before
    simp [same, same'] at other
  · obtain here | behind := List.mem_cons.1 here
    · obtain rfl := here
      exact String.le_refl q.1
    · have below := (List.pairwise_cons.1 (List.pairwise_append.1 descending).2.1).1 _ behind
      exact String.not_lt.1 (String.lt_asymm below)

/-- Of the names that are the same in lower case the greatest counts, under all of them. -/
theorem get?_prefixes_iff :
    (PrefixMap.ofList (Dictionary.ofList pairs).entries).get? n = some identifier ↔
      ∃ name, lowercase name = lowercase n ∧ Decides pairs name identifier := by
  rw [PrefixMap.get?_ofList, Option.map_eq_some_iff]
  constructor
  · rintro ⟨p, found, rfl⟩
    exact ⟨p.1, decides_of_find? found⟩
  · rintro ⟨name, same, decides⟩
    have entry : (name, identifier) ∈ (Dictionary.ofList pairs).entries.reverse :=
      List.mem_reverse.2 (mem_entries_ofList.2 decides.last)
    have some_entry : ((Dictionary.ofList pairs).entries.reverse.find? fun p =>
        lowercase n = lowercase p.1).isSome = true :=
      List.find?_isSome.2 ⟨_, entry, decide_eq_true same.symm⟩
    obtain ⟨p, found⟩ := Option.isSome_iff_exists.1 some_entry
    obtain ⟨same', decides'⟩ := decides_of_find? found
    exact ⟨p, found, decides'.unique decides (same'.trans same.symm)⟩

end

/-! ### Texts -/

/-- Members that bind names to texts. -/
def strings (pairs : List (String × String)) : List Member :=
  pairs.map fun p => (.ok p.1, .scalar (.ok (.string p.2)) none)

theorem exists_strings {ms : List Member} {d d' : Dictionary} (sound : ∀ m ∈ ms, m.2.defect? = none)
    (folds : Folds Binds ms d d') : ∃ pairs, ms = strings pairs := by
  induction ms generalizing d with
  | nil => exact ⟨[], rfl⟩
  | cons m ms ih =>
    obtain ⟨first, others⟩ := List.forall_mem_cons.1 sound
    obtain ⟨_, ⟨name, i, named, loaded, -⟩, rest⟩ := folds
    obtain ⟨pairs, rfl⟩ := ih others rest
    obtain ⟨_, value⟩ := m
    dsimp only at named loaded first
    unfold loadText at loaded
    split at loaded
    · cases loaded
      cases named
      cases first
      exact ⟨(name, i) :: pairs, rfl⟩
    · exact absurd loaded mismatch_ne_ok

theorem exists_pairs_of_loadDictionary {value : Document} {d : Dictionary}
    (sound : value.defect? = none) (loaded : loadDictionary value = .ok d) :
    ∃ pairs, value = .object (strings pairs) none ∧ d = .ofList pairs := by
  unfold loadDictionary at loaded
  split at loaded
  next members ending =>
    rw [Document.defect?, Option.or_eq_none_iff, Json.defectOfMembers?_eq_none] at sound
    obtain ⟨sound, rfl⟩ := sound
    obtain ⟨pairs, rfl⟩ := exists_strings sound (loadBindings_eq_ok.1 loaded)
    rw [strings, loadBindings_strings] at loaded
    exact ⟨pairs, rfl, (Except.ok.inj loaded).symm⟩
  · exact absurd loaded mismatch_ne_ok

/-- Whether a document is an object that holds a value under a name. -/
def Holds (d : Document) (name : String) (value : Document) : Prop :=
  ∃ members, d = .object members none ∧ (.ok name, value) ∈ members

theorem defect?_of_holds {d value : Document} {name : String} (holds : Holds d name value)
    (sound : d.defect? = none) : value.defect? = none := by
  obtain ⟨members, rfl, mem⟩ := holds
  rw [Document.defect?, Option.or_none, Json.defectOfMembers?_eq_none] at sound
  exact sound _ mem

theorem prefixes_of_holds {d rules prefixes : Document} {s : Settings} (sound : d.defect? = none)
    (loaded : Part.settings.load d = .ok s) (parser : Holds d "parser" rules)
    (defaults : Holds rules "default_prefixes" prefixes) :
    ∃ pairs, prefixes = .object (strings pairs) none ∧
      s.rules.defaultPrefixes = .ofList (Dictionary.ofList pairs).entries := by
  have passed := defect?_of_holds defaults (defect?_of_holds parser sound)
  obtain ⟨members, rfl, mem⟩ := parser
  obtain ⟨members', rfl, mem'⟩ := defaults
  obtain ⟨_, last⟩ := loadMembers_last commutes_settingsFields rfl mem loaded
  obtain ⟨r, whole, rfl⟩ := set_eq_ok.1 last
  obtain ⟨_, last⟩ := loadMembers_last commutes_rulesFields rfl mem' whole
  obtain ⟨_, bound, rfl⟩ := set_eq_ok.1 last
  obtain ⟨names, listed, rfl⟩ := set_eq_ok.1 bound
  obtain ⟨pairs, rfl, rfl⟩ := exists_pairs_of_loadDictionary passed listed
  exact ⟨pairs, rfl, rfl⟩

/-- Settings are loaded from JSON text only, and the order of members makes no difference to them, nor
    do members whose names are not known. Of short names that are the same in lower case the greatest
    counts. -/
theorem unordered_of_ofRead (codec : Codec) {text : String} {s : Settings}
    (loaded : ofRead (codec.read text) = .ok s) :
    (∃ d, codec.IsTextOf d text) ∧ ∀ d, codec.IsTextOf d text →
      (∀ d' text', Relation.ReflTransGen Part.settings.Edit d d' → codec.IsTextOf d' text' →
        ofRead (codec.read text') = .ok s) ∧
      ∀ rules prefixes, Holds d "parser" rules → Holds rules "default_prefixes" prefixes →
        ∃ pairs, prefixes = .object (strings pairs) none ∧ ∀ n i,
          s.rules.defaultPrefixes.get? n = some i ↔
            ∃ name, lowercase name = lowercase n ∧ Decides pairs name i := by
  refine ⟨exists_isTextOf_of_ofRead loaded, fun d written => ?_⟩
  have loaded := (ofRead_eq_ok written).1 loaded
  refine ⟨fun d' text' edits written' => ?_, fun rules prefixes parser defaults => ?_⟩
  · exact (ofRead_eq_ok written').2 (alike_of_edits edits s loaded)
  · obtain ⟨pairs, rfl, bound⟩ := prefixes_of_holds (codec.defect?_eq written) loaded parser defaults
    exact ⟨pairs, rfl, fun n i => by rw [bound, get?_prefixes_iff]⟩

/-- Two short names that differ in case, written in either order, and a member that is not known. -/
theorem unordered_of_ofText_dc :
    let s : Settings := { rules := { defaultPrefixes := .ofList [("dc", "2")] } }
    let parser (pairs : List (String × String)) : String × Json :=
      ("parser", .object [("default_prefixes", .ofPairs pairs)])
    let j : Json := .object [parser [("DC", "1"), ("dc", "2")]]
    let j' : Json := .object [("x", .array [.null]), parser [("dc", "2"), ("DC", "1")]]
    ofText j.compact = .ok s ∧ ofText j'.compact = .ok s ∧
      ∀ n i, s.rules.defaultPrefixes.get? n = some i ↔
        ∃ name, lowercase name = lowercase n ∧ Decides [("DC", "1"), ("dc", "2")] name i := by
  intro s parser j j'
  have loaded : ofText j.compact = .ok s := by decide +kernel
  have written (j : Json) (fits : j.Fits) : Json.codec.IsTextOf j.document j.compact :=
    Json.codec.isTextOf_write fits j.codec_writes_compact
  let swapped : Json := .object [parser [("dc", "2"), ("DC", "1")]]
  have swap : Part.settings.Edit j.document swapped.document :=
    .inside [] [] rfl (.inside [] [] rfl (.reorder (by decide) (.swap _ _ _)))
  have add : Part.settings.Edit swapped.document j'.document := .add [] _ rfl (by decide) rfl
  have fits (pairs : List (String × String)) : (parser pairs).2.Fits :=
    ⟨fitMembers_strings pairs, trivial⟩
  obtain ⟨-, whole⟩ := unordered_of_ofRead Json.codec loaded
  obtain ⟨edited, bound⟩ := whole j.document (written j ⟨fits _, trivial⟩)
  have loaded' : ofText j'.compact = .ok s :=
    edited _ _ (.tail (.single swap) add) (written j' ⟨⟨trivial, trivial⟩, fits _, trivial⟩)
  refine ⟨loaded, loaded', ?_⟩
  obtain ⟨pairs, listed, bound⟩ := bound _ _ ⟨_, rfl, List.mem_singleton_self _⟩
    ⟨_, rfl, List.mem_singleton_self _⟩
  have same : strings [("DC", "1"), ("dc", "2")] = strings pairs := by injection listed
  have injective (p q : String × String)
      (h : ((.ok p.1, .scalar (.ok (.string p.2)) none) : Member) =
        (.ok q.1, .scalar (.ok (.string q.2)) none)) : p = q := by
    obtain ⟨_, _⟩ := p
    obtain ⟨_, _⟩ := q
    cases h
    rfl
  obtain rfl := (List.map_inj_right injective).1 same
  exact bound

end ContextualQuery.Settings
