import ContextualQuery.Proofs.Json.Codec
import ContextualQuery.Proofs.PrefixMap
import ContextualQuery.Settings.Loader

/-! Settings are loaded again from what is written of them.

    Settings that are loaded have short names in lower case and numbers of 64 bits (`Storable`). That is
    what it takes to get them back: lower-casing names again changes nothing, so no two of them are
    taken for one, and every other value is read as it is written. Dictionaries may be written in any
    order. Of the reader and the writer of JSON text no more is used than what `Json.Codec` says. -/

namespace ContextualQuery

open Json (Codec Document Defect maxWord document documents memberDocuments)

namespace Settings

/-! ### Writing -/

/-- Settings as data, their dictionaries listed in given orders. -/
def listed (s : Settings) (elements backend : List (String × String)) : Json :=
  .object [
    ("parser", s.rules.json),
    ("dc_mapping", .ofPairs elements),
    ("backend_mapping", .ofPairs backend)]

/-- The texts that are written of settings. -/
inductive Writes (codec : Codec) (s : Settings) : String → Prop
  | listed {elements backend : List (String × String)} {text : String}
    (perm : elements.Perm s.fields.elements.entries) (perm' : backend.Perm s.fields.backend.entries)
    (written : codec.Writes (s.listed elements backend) text) : Writes codec s text

/-- The canonical text of settings is one of their texts. -/
theorem writes_of_json {codec : Codec} {s : Settings} {text : String}
    (written : codec.Writes s.json text) : s.Writes codec text :=
  .listed .rfl .rfl written

/-! ### Loading what is written -/

/-- An object of strings, as its reader hands it on. -/
theorem memberDocuments_map (pairs : List (String × String)) :
    memberDocuments (pairs.map fun p => (p.1, .string p.2)) =
      pairs.map fun p => (.ok p.1, .scalar (.ok (.string p.2)) none) := by
  induction pairs with
  | nil => rfl
  | cons p pairs ih => rw [List.map_cons, memberDocuments, ih, document, List.map_cons]

/-- Strings are put in one after the other. -/
theorem loadBindings_strings (pairs : List (String × String)) (d : Dictionary) :
    loadBindings none d (pairs.map fun p => (.ok p.1, .scalar (.ok (.string p.2)) none)) =
      .ok (pairs.foldl (fun d p => d.insert p.1 p.2) d) := by
  induction pairs generalizing d with
  | nil => rfl
  | cons p pairs ih => exact ih (d.insert p.1 p.2)

/-- A dictionary is loaded from its pairs in any order. -/
theorem loadDictionary_document {d : Dictionary} {pairs : List (String × String)}
    (perm : pairs.Perm d.entries) : loadDictionary (Json.ofPairs pairs).document = .ok d := by
  rw [Json.ofPairs, document, memberDocuments_map, loadDictionary, loadBindings_strings]
  exact congrArg _ (Dictionary.ofList_of_perm perm)

/-- A map of short names is loaded from itself, as its names are in lower case. -/
theorem loadPrefixes_document {m : PrefixMap} (lower : m.Lower) :
    loadPrefixes m.json.document = .ok m := by
  rw [loadPrefixes, PrefixMap.json, Dictionary.json, loadDictionary_document .rfl]
  exact congrArg _ (PrefixMap.ofList_entries lower)

/-- One member of a record after the other is loaded into its field. -/
theorem loadMembers_cons {α : Type} {fields : List (Field α)} {ending : Option Defect}
    {given : List String} {name : String} {value : Document}
    {rest : List (Except Defect String × Document)} {a a' : α} {field : Field α}
    (known : fields.find? (·.name == name) = some field) (fresh : given.contains name = false)
    (loaded : field.load value a = .ok a') :
    loadMembers fields ending given ((.ok name, value) :: rest) a =
      loadMembers fields ending (name :: given) rest a' := by
  rw [loadMembers]
  simp only [Except.mapError, bind, Except.bind, known, fresh, loaded]
  rfl

/-- All seven rules are written, so each is loaded from its own member. -/
theorem loadRules_document {r : Rules} (lower : r.defaultPrefixes.Lower) :
    loadRecord .rules rulesFields {} r.json.document = .ok r := by
  have prefixes := loadPrefixes_document lower
  rw [Rules.json, document, loadRecord]
  simp only [memberDocuments, document]
  rw [loadMembers_cons rfl rfl rfl, loadMembers_cons rfl rfl rfl, loadMembers_cons rfl rfl rfl,
    loadMembers_cons rfl rfl rfl, loadMembers_cons rfl rfl (by simp only [prefixes]; rfl),
    loadMembers_cons rfl rfl rfl]
  rfl

/-- Fields and rules, with the two dictionaries in any order. -/
theorem loadSettings_document {s : Settings} (lower : s.rules.defaultPrefixes.Lower)
    {elements backend : List (String × String)} (perm : elements.Perm s.fields.elements.entries)
    (perm' : backend.Perm s.fields.backend.entries) :
    loadRecord .settings settingsFields {} (s.listed elements backend).document = .ok s := by
  have rules := loadRules_document lower
  have first := loadDictionary_document perm
  have second := loadDictionary_document perm'
  rw [listed, document, loadRecord]
  simp only [memberDocuments]
  rw [loadMembers_cons rfl rfl (by simp only [rules]; rfl),
    loadMembers_cons rfl rfl (by simp only [first]; rfl),
    loadMembers_cons rfl rfl (by simp only [second]; rfl)]
  rfl

theorem fitMembers_strings (pairs : List (String × String)) :
    Json.FitMembers (pairs.map fun p => (p.1, .string p.2)) := by
  induction pairs with
  | nil => trivial
  | cons p pairs ih => exact ⟨trivial, ih⟩

/-- The only number of the settings is the limit of depth, which fits into a machine word. -/
theorem fits_listed {s : Settings} (size : s.rules.maxDepth ≤ maxWord)
    (elements backend : List (String × String)) : (s.listed elements backend).Fits := by
  have dictionary (pairs : List (String × String)) : (Json.ofPairs pairs).Fits :=
    fitMembers_strings pairs
  simp [listed, Rules.json, PrefixMap.json, Dictionary.json, Json.Fits, Json.FitMembers, dictionary,
    size]

end Settings

/-- Rules that are loaded again as they are when they have been written. -/
structure Rules.Storable (r : Rules) : Prop where
  lower : r.defaultPrefixes.Lower
  size : r.maxDepth ≤ maxWord

namespace Settings

/-- Whatever a codec writes for settings that can be stored is loaded as them. -/
theorem ofRead_of_writes {codec : Codec} {s : Settings} (storable : s.rules.Storable) {text : String}
    (written : s.Writes codec text) : ofRead (codec.read text) = .ok s := by
  obtain ⟨perm, perm', written⟩ := written
  have exact := codec.read_eq (codec.isTextOf_write (fits_listed storable.size _ _) written)
  rw [exact, ofRead, loadRead]
  simp only [loadSettings_document storable.lower perm perm']
  rfl

/-! ### What is loaded -/

/-- A load that succeeds has loaded all its parts. -/
theorem bind_eq_ok {α β : Type} {x : Load α} {f : α → Load β} {b : β} :
    (x >>= f) = .ok b ↔ ∃ a, x = .ok a ∧ f a = .ok b := by
  cases x with
  | error p => exact ⟨fun h => (by cases h), fun ⟨a, h, _⟩ => (by cases h)⟩
  | ok a => exact ⟨fun h => ⟨a, rfl, h⟩, fun ⟨_, h, h'⟩ => Except.ok.inj h ▸ h'⟩

theorem loadEnding_eq_ok {α : Type} {ending : Option Defect} {a a' : α} :
    loadEnding ending a = .ok a' ↔ ending = none ∧ a = a' := by
  cases ending <;> simp [loadEnding]

theorem eq_of_loadEnding {α : Type} {ending : Option Defect} {a a' : α}
    (h : loadEnding ending a = .ok a') : a = a' :=
  (loadEnding_eq_ok.1 h).2

section
variable {α : Type} {P : α → Prop} {fields : List (Field α)} {ending : Option Defect}

/-- Whether no value that is read for a field breaks what holds of a record. -/
def Field.Keeps (P : α → Prop) (field : Field α) : Prop :=
  ∀ d a a', Document.Fits d → P a → field.load d a = .ok a' → P a'

/-- By induction on the items of an array, each of which sets a field. -/
theorem keeps_loadItems (keeps : ∀ field ∈ fields, field.Keeps P) {items : List Document} {a a' : α}
    (fits : ∀ item ∈ items, item.Fits) (initial : P a)
    (loaded : loadItems ending fields items a = .ok a') : P a' := by
  induction items generalizing fields a with
  | nil =>
    rw [loadItems] at loaded
    exact eq_of_loadEnding loaded ▸ initial
  | cons item items ih =>
    obtain ⟨first, rest⟩ := List.forall_mem_cons.1 fits
    cases fields with
    | nil => cases loaded
    | cons field fields =>
      obtain ⟨kept, keeps⟩ := List.forall_mem_cons.1 keeps
      rw [loadItems, bind_eq_ok] at loaded
      obtain ⟨b, here, later⟩ := loaded
      exact ih keeps rest (kept item a b first initial here) later

/-- By induction on the members of an object. Unknown ones are skipped. -/
theorem keeps_loadMembers (keeps : ∀ field ∈ fields, field.Keeps P)
    {members : List (Except Defect String × Document)} {given : List String} {a a' : α}
    (fits : ∀ m ∈ members, m.2.Fits) (initial : P a)
    (loaded : loadMembers fields ending given members a = .ok a') : P a' := by
  induction members generalizing given a with
  | nil =>
    rw [loadMembers] at loaded
    exact eq_of_loadEnding loaded ▸ initial
  | cons m members ih =>
    obtain ⟨first, rest⟩ := List.forall_mem_cons.1 fits
    obtain ⟨name, value⟩ := m
    rw [loadMembers, bind_eq_ok] at loaded
    obtain ⟨name, -, loaded⟩ := loaded
    split at loaded
    · split at loaded
      · cases loaded
      · exact ih rest initial loaded
    next field known =>
      split at loaded
      · cases loaded
      · obtain ⟨b, here, later⟩ := bind_eq_ok.1 loaded
        exact ih rest (keeps field (List.mem_of_find?_eq_some known) value a b first initial here) later

theorem mismatch_ne_ok {wanted : Wanted} {d : Document} {a : α} : mismatch wanted d ≠ .ok a := by
  unfold mismatch
  split <;> simp

/-- A record is given as an object or as an array of its fields. -/
theorem keeps_loadRecord {wanted : Wanted} (keeps : ∀ field ∈ fields, field.Keeps P) {d : Document}
    {a a' : α} (fits : d.Fits) (initial : P a) (loaded : loadRecord wanted fields a d = .ok a') :
    P a' := by
  cases fits with
  | scalar => exact absurd loaded mismatch_ne_ok
  | array fits => exact keeps_loadItems keeps fits initial loaded
  | object fits => exact keeps_loadMembers keeps fits initial loaded

/-- A field that is filled with what is loaded keeps what no such value breaks. -/
theorem Field.keeps_of_load {β : Type} {name : String} {load : Document → Load β} {set : α → β → α}
    (kept : ∀ d b a, d.Fits → load d = .ok b → P a → P (set a b)) :
    Field.Keeps P ⟨name, fun d a => return set a (← load d)⟩ := by
  intro d a a' fits initial loaded
  obtain ⟨b, here, whole⟩ := bind_eq_ok.1 loaded
  cases whole
  exact kept d b a fits here initial

end

/-- A limit is loaded from a number that fits into a machine word. -/
theorem le_of_loadSize {d : Document} {n : Nat} (fits : d.Fits) (loaded : loadSize d = .ok n) :
    n ≤ maxWord := by
  unfold loadSize at loaded
  split at loaded
  · cases loaded
    cases fits with
    | scalar fits => exact fits false _ rfl
  · cases loaded
  · exact absurd loaded mismatch_ne_ok

/-- Short names are in lower case once they are loaded. -/
theorem lower_of_loadPrefixes {d : Document} {m : PrefixMap} (loaded : loadPrefixes d = .ok m) :
    m.Lower := by
  obtain ⟨names, -, whole⟩ := bind_eq_ok.1 loaded
  cases whole
  exact PrefixMap.lower_ofList names.entries

theorem storable_default : ({} : Rules).Storable where
  lower := PrefixMap.lower_empty
  size := by decide

/-- Two of the rules can spoil what is asked: the limit and the map of short names. -/
theorem keeps_rulesFields : ∀ field ∈ rulesFields, field.Keeps Rules.Storable := by
  simp only [rulesFields, List.forall_mem_cons]
  refine ⟨?_, ?_, ?_, ?_, ?_, ?_, by simp⟩
  · exact Field.keeps_of_load fun d b r _ _ h => ⟨h.lower, h.size⟩
  · exact Field.keeps_of_load fun d b r _ _ h => ⟨h.lower, h.size⟩
  · exact Field.keeps_of_load fun d b r _ _ h => ⟨h.lower, h.size⟩
  · exact Field.keeps_of_load fun d b r _ _ h => ⟨h.lower, h.size⟩
  · exact Field.keeps_of_load fun d b r _ loaded h => ⟨lower_of_loadPrefixes loaded, h.size⟩
  · exact Field.keeps_of_load fun d b r fits loaded h => ⟨h.lower, le_of_loadSize fits loaded⟩

theorem keeps_settingsFields : ∀ field ∈ settingsFields, field.Keeps (·.rules.Storable) := by
  simp only [settingsFields, List.forall_mem_cons]
  refine ⟨?_, ?_, ?_, by simp⟩
  · exact Field.keeps_of_load fun d b s fits loaded _ =>
      keeps_loadRecord keeps_rulesFields fits storable_default loaded
  · exact Field.keeps_of_load fun d b s _ _ h => h
  · exact Field.keeps_of_load fun d b s _ _ h => h

/-- Whatever is loaded can be stored again. -/
theorem storable_of_ofRead {codec : Codec} {text : String} {s : Settings}
    (loaded : ofRead (codec.read text) = .ok s) : s.rules.Storable := by
  obtain ⟨s', here, ended⟩ := bind_eq_ok.1 loaded
  obtain rfl := eq_of_loadEnding ended
  exact keeps_loadRecord keeps_settingsFields (codec.fits_read text) storable_default here

/-! ### Round trips -/

/-- A way to write settings. -/
structure Writer (codec : Codec) where
  write : Settings → String
  written : ∀ s : Settings, s.Writes codec (write s)

/-- On one line, or over many. -/
def Writer.compact : Writer Json.codec :=
  ⟨fun s => s.json.compact, fun s => writes_of_json s.json.codec_writes_compact⟩

def Writer.pretty : Writer Json.codec :=
  ⟨fun s => s.json.pretty, fun s => writes_of_json s.json.codec_writes_pretty⟩

/-- Loads what is written. -/
def Writer.reload {codec : Codec} (w : Writer codec) (s : Settings) : Load Settings :=
  ofRead (codec.read (w.write s))

/-- Settings that are loaded are loaded again from all that is written of them, however often and in
    whatever way that is done. -/
theorem reload_of_ofRead (codec : Codec) {text : String} {s : Settings}
    (loaded : ofRead (codec.read text) = .ok s) :
    s.rules.defaultPrefixes.Lower ∧
      (∀ written, s.Writes codec written → ofRead (codec.read written) = .ok s) ∧
      ∀ writers : List (Writer codec), writers.foldlM (fun s w => w.reload s) s = .ok s := by
  have storable := storable_of_ofRead loaded
  refine ⟨storable.lower, fun written h => ofRead_of_writes storable h, fun writers => ?_⟩
  induction writers with
  | nil => rfl
  | cons w writers ih =>
    rw [List.foldlM_cons, Writer.reload, ofRead_of_writes storable (w.written s)]
    exact ih

/-- Names that differ in case only, escapes, a field that is not known, and the greatest depth. -/
theorem reload_of_ofText_escapes :
    let s : Settings := {
      rules := { defaultPrefixes := .ofList [("dc", "A\n")], maxDepth := 18446744073709551615 }
      fields := { elements := .ofList [("a", "😀"), ("b", "")] } }
    ofText ("\x7b\"parser\": \x7b\"max_depth\": 18446744073709551615, \"default_prefixes\": " ++
      "\x7b\"DC\": \"a\", \"Dc\": \"\\u0041\\n\"\x7d\x7d, \"x\": [null], " ++
      "\"dc_mapping\": \x7b\"b\": \"\", \"a\": \"\\ud83d\\ude00\"\x7d\x7d") = .ok s ∧
    s.rules.defaultPrefixes.Lower ∧ (∀ written, s.Writes Json.codec written → ofText written = .ok s) ∧
      ∀ writers : List (Writer Json.codec), writers.foldlM (fun s w => w.reload s) s = .ok s := by
  intro s
  have whole {text : String} (loaded : ofText text = .ok s) :=
    And.intro loaded (reload_of_ofRead Json.codec loaded)
  exact whole (by decide +kernel)

end Settings

end ContextualQuery
