import ContextualQuery.Proofs.SettingsRoundTrip
import Mathlib.Data.List.Pairwise

/-! What is loaded from the members of objects.

    Objects are loaded member after member (`Folds`). Two members may change places if they bind
    different names, or are not for the same field of a record (`Folds.perm`). Members whose names are not
    known are passed over.

    Nothing is loaded from a document that breaks (`Rejects`), so settings are loaded from JSON text only
    (`exists_isTextOf_of_ofRead`). -/

namespace ContextualQuery.Settings

open Json (Codec Document Defect)

/-! ### Member after member -/

/-- A member of an object. -/
abbrev Member := Except Defect String × Document

/-- Whether steps, one for each member, lead from one value to another. -/
def Folds {α : Type} (step : Member → α → α → Prop) : List Member → α → α → Prop
  | [], a, c => a = c
  | m :: ms, a, c => ∃ b, step m a b ∧ Folds step ms b c

section
variable {α : Type} {step : Member → α → α → Prop} {apart : Member → Member → Prop}
  {m : Member} {ms ms' : List Member} {a c : α}

/-- One more member behind those that were folded in. -/
theorem folds_concat : Folds step (ms ++ [m]) a c ↔ ∃ b, Folds step ms a b ∧ step m b c := by
  induction ms generalizing a with
  | nil => simp [Folds]
  | cons m' ms ih =>
    simp only [List.cons_append, Folds, ih]
    constructor
    · rintro ⟨b, first, b', rest, last⟩
      exact ⟨b', ⟨b, first, rest⟩, last⟩
    · rintro ⟨b', ⟨b, first, rest⟩, last⟩
      exact ⟨b, first, b', rest, last⟩

/-- Steps that can be exchanged lead to the same value in any order. -/
theorem Folds.perm (symm : ∀ {x y}, apart x y → apart y x)
    (exchange : ∀ {x y a b c}, apart x y → step x a b → step y b c → ∃ b', step y a b' ∧ step x b' c)
    (perm : ms.Perm ms') (distinct : ms.Pairwise apart) (folds : Folds step ms a c) :
    Folds step ms' a c := by
  induction perm generalizing a with
  | nil => exact folds
  | cons _ _ ih =>
    obtain ⟨-, distinct⟩ := List.pairwise_cons.1 distinct
    obtain ⟨b, first, rest⟩ := folds
    exact ⟨b, first, ih distinct rest⟩
  | swap x y =>
    obtain ⟨others, -⟩ := List.pairwise_cons.1 distinct
    obtain ⟨b, first, b', second, rest⟩ := folds
    obtain ⟨b, second, first⟩ := exchange (others _ List.mem_cons_self) first second
    exact ⟨b, second, b', first, rest⟩
  | trans perm _ ih ih' => exact ih' ((perm.pairwise_iff symm).1 distinct) (ih distinct folds)

end

/-! ### Dictionaries -/

/-- What binding a member does to a dictionary. -/
def Binds (m : Member) (d d' : Dictionary) : Prop :=
  ∃ name i, m.1 = .ok name ∧ loadText m.2 = .ok i ∧ d.insert name i = d'

/-- A dictionary is loaded if each of its members is put in. -/
theorem loadBindings_eq_ok {ms : List Member} {d d' : Dictionary} :
    loadBindings none d ms = .ok d' ↔ Folds Binds ms d d' := by
  induction ms generalizing d with
  | nil => exact ⟨Except.ok.inj, congrArg _⟩
  | cons m ms ih =>
    obtain ⟨name, value⟩ := m
    simp only [loadBindings, bind_eq_ok, ih, Folds, Binds]
    constructor
    · rintro ⟨name', named, i, loaded, rest⟩
      cases name with
      | error => cases named
      | ok name =>
        obtain rfl := Except.ok.inj named
        exact ⟨_, ⟨name, i, rfl, loaded, rfl⟩, rest⟩
    · rintro ⟨_, ⟨name', i, rfl, loaded, rfl⟩, rest⟩
      exact ⟨name', rfl, i, loaded, rest⟩

/-- Members of different names may be bound in any order. -/
theorem Binds.exchange {x y : Member} {a b c : Dictionary} (apart : x.1 ≠ y.1) (first : Binds x a b)
    (second : Binds y b c) : ∃ b', Binds y a b' ∧ Binds x b' c := by
  obtain ⟨name, i, named, loaded, rfl⟩ := first
  obtain ⟨name', i', named', loaded', rfl⟩ := second
  have other : name ≠ name' := by
    rintro rfl
    exact apart (named.trans named'.symm)
  have same := (a.insert_comm other i i').symm
  exact ⟨_, ⟨name', i', named', loaded', rfl⟩, name, i, named, loaded, same⟩

/-! ### Records -/

section
variable {α : Type}

/-- What a member does to a record: it is loaded into its field or passed over. -/
inductive Sets (fields : List (Field α)) : Member → α → α → Prop
  | field {name value a b field} (known : fields.find? (·.name == name) = some field)
      (loaded : field.load value a = .ok b) : Sets fields (.ok name, value) a b
  | pass {name value a} (unknown : fields.find? (·.name == name) = none)
      (sound : value.defect? = none) : Sets fields (.ok name, value) a a

/-- Whether two members are for different fields, or for none. -/
def Apart (fields : List (Field α)) (m m' : Member) : Prop :=
  ∀ name, m.1 = .ok name → m'.1 = .ok name → fields.find? (·.name == name) = none

/-- Whether two fields may be loaded in any order. -/
def Field.Commutes (f g : Field α) : Prop :=
  ∀ v w a c, (∃ b, f.load v a = .ok b ∧ g.load w b = .ok c) ↔
    ∃ b, g.load w a = .ok b ∧ f.load v b = .ok c

instance : Std.Symm (@Field.Commutes α) := ⟨fun _ _ h v w a c => (h w v a c).symm⟩

/-- A field is set to what its value is loaded as. -/
theorem set_eq_ok {β : Type} {load : Load β} {set : β → α} {b : α} :
    (do return set (← load)) = .ok b ↔ ∃ x, load = .ok x ∧ set x = b := by
  rw [bind_eq_ok]
  exact ⟨fun ⟨x, loaded, h⟩ => ⟨x, loaded, Except.ok.inj h⟩,
    fun ⟨x, loaded, h⟩ => ⟨x, loaded, congrArg _ h⟩⟩

/-- Fields that are filled with what is loaded commute if filling them does. -/
theorem Field.commutes_of_load {β γ : Type} {name name' : String} {load : Document → Load β}
    {load' : Document → Load γ} {set : α → β → α} {set' : α → γ → α}
    (comm : ∀ a b c, set' (set a b) c = set (set' a c) b) :
    Field.Commutes ⟨name, fun d a => return set a (← load d)⟩
      ⟨name', fun d a => return set' a (← load' d)⟩ := by
  intro v w a c
  simp only [set_eq_ok]
  constructor
  · rintro ⟨_, ⟨x, loaded, rfl⟩, y, loaded', rfl⟩
    exact ⟨_, ⟨y, loaded', rfl⟩, x, loaded, (comm a x y).symm⟩
  · rintro ⟨_, ⟨y, loaded', rfl⟩, x, loaded, rfl⟩
    exact ⟨_, ⟨x, loaded, rfl⟩, y, loaded', comm a x y⟩

variable {fields : List (Field α)} {given : List String} {ms ms' : List Member} {a a' : α}

theorem Apart.symm {m m' : Member} (h : Apart fields m m') : Apart fields m' m :=
  fun name named named' => h name named' named

/-- What it takes to load one more member of a record. -/
theorem loadMembers_cons_eq_ok {ending : Option Defect} {m : Member} :
    loadMembers fields ending given (m :: ms) a = .ok a' ↔ ∃ name, m.1 = .ok name ∧
      (fields.find? (·.name == name) = none ∧ m.2.defect? = none ∧
          loadMembers fields ending given ms a = .ok a' ∨
        ∃ field b, fields.find? (·.name == name) = some field ∧ name ∉ given ∧
          field.load m.2 a = .ok b ∧ loadMembers fields ending (name :: given) ms b = .ok a') := by
  obtain ⟨_ | name, value⟩ := m
  · simp [loadMembers, bind_eq_ok, Except.mapError]
  rw [loadMembers, bind_eq_ok]
  simp only [Except.mapError, Except.ok.injEq, exists_eq_left']
  cases fields.find? (·.name == name) with
  | none => cases value.defect? <;> simp
  | some field => by_cases old : name ∈ given <;> simp [old, bind_eq_ok]

/-- Members are loaded one after the other, no two of them into one field, and none into a field that is
    given already. -/
theorem loadMembers_eq_ok : loadMembers fields none given ms a = .ok a' ↔
    ms.Pairwise (Apart fields) ∧
      (∀ m ∈ ms, ∀ name ∈ given, m.1 = .ok name → fields.find? (·.name == name) = none) ∧
      Folds (Sets fields) ms a a' := by
  -- On the members, the names of the fields that are given growing with each.
  induction ms generalizing given a with
  | nil => simp [loadMembers, loadEnding, Folds]
  | cons m ms ih =>
    rw [loadMembers_cons_eq_ok, List.pairwise_cons, List.forall_mem_cons, Folds]
    obtain ⟨name', value⟩ := m
    constructor
    · rintro ⟨name, rfl, ⟨unknown, sound, loaded⟩ | ⟨field, b, known, new, loaded, rest⟩⟩
      · obtain ⟨distinct, fresh, rest⟩ := ih.1 loaded
        refine ⟨⟨fun m _ n named _ => ?_, distinct⟩, ⟨fun n _ named => ?_, fresh⟩, a,
          .pass unknown sound, rest⟩
        · exact Except.ok.inj named ▸ unknown
        · exact Except.ok.inj named ▸ unknown
      · obtain ⟨distinct, fresh, rest⟩ := ih.1 rest
        refine ⟨⟨fun m hm n named named' => ?_, distinct⟩,
          ⟨fun n hn named => ?_, fun m hm n hn => ?_⟩, b, .field known loaded, rest⟩
        · obtain rfl := Except.ok.inj named
          exact fresh m hm _ List.mem_cons_self named'
        · exact absurd (Except.ok.inj named ▸ hn) new
        · exact fresh m hm n (List.mem_cons_of_mem _ hn)
    · rintro ⟨⟨apart, distinct⟩, ⟨first, fresh⟩, b, here, rest⟩
      cases here with
      | @pass name _ _ unknown sound =>
        exact ⟨name, rfl, .inl ⟨unknown, sound, ih.2 ⟨distinct, fresh, rest⟩⟩⟩
      | @field name _ _ _ field known loaded =>
        have new : name ∉ given := fun old => by cases known.symm.trans (first name old rfl)
        have fresh : ∀ m ∈ ms, ∀ n ∈ name :: given, m.1 = .ok n →
            fields.find? (·.name == n) = none := by
          intro m hm n hn named
          obtain rfl | hn := List.mem_cons.1 hn
          · exact apart m hm n rfl named
          · exact fresh m hm n hn named
        exact ⟨name, rfl, .inr ⟨field, b, known, new, loaded, ih.2 ⟨distinct, fresh, rest⟩⟩⟩

/-- Members that are not for one field may be loaded in any order. -/
theorem Sets.exchange (commutes : fields.Pairwise Field.Commutes) {x y : Member} {a b c : α}
    (apart : Apart fields x y) (first : Sets fields x a b) (second : Sets fields y b c) :
    ∃ b', Sets fields y a b' ∧ Sets fields x b' c := by
  cases first with
  | pass unknown sound => exact ⟨c, second, .pass unknown sound⟩
  | @field name _ _ _ f known loaded =>
    cases second with
    | pass unknown sound => exact ⟨a, .pass unknown sound, .field known loaded⟩
    | @field name' _ _ _ g known' loaded' =>
      have other : f ≠ g := by
        rintro rfl
        have named : f.name = name := by simpa using List.find?_some known
        have named' : f.name = name' := by simpa using List.find?_some known'
        subst named named'
        cases known.symm.trans (apart f.name rfl rfl)
      have commute := commutes.forall (List.mem_of_find?_eq_some known)
        (List.mem_of_find?_eq_some known') other
      obtain ⟨b', loaded', loaded⟩ := (commute _ _ _ _).1 ⟨b, loaded, loaded'⟩
      exact ⟨b', .field known' loaded', .field known loaded⟩

/-- The members of a record may stand in any order. -/
theorem loadMembers_perm (commutes : fields.Pairwise Field.Commutes) (perm : ms.Perm ms')
    (loaded : loadMembers fields none [] ms a = .ok a') : loadMembers fields none [] ms' a = .ok a' := by
  obtain ⟨distinct, -, folds⟩ := loadMembers_eq_ok.1 loaded
  exact loadMembers_eq_ok.2 ⟨(perm.pairwise_iff Apart.symm).1 distinct, by simp,
    folds.perm Apart.symm (Sets.exchange commutes) perm distinct⟩

/-- A member that is no field is passed over, if what it holds is JSON. -/
theorem loadMembers_cons_unknown {name : String} {value : Document}
    (unknown : fields.find? (·.name == name) = none) (sound : value.defect? = none)
    (loaded : loadMembers fields none [] ms a = .ok a') :
    loadMembers fields none [] ((.ok name, value) :: ms) a = .ok a' := by
  obtain ⟨distinct, -, folds⟩ := loadMembers_eq_ok.1 loaded
  refine loadMembers_eq_ok.2 ⟨List.pairwise_cons.2 ⟨fun m _ n named _ => ?_, distinct⟩, by simp,
    a, .pass unknown sound, folds⟩
  obtain rfl := Except.ok.inj named
  exact unknown

/-- The value of a field may be replaced by one that is loaded alike. -/
theorem loadMembers_cons_known {name : String} {value value' : Document} {field : Field α}
    (known : fields.find? (·.name == name) = some field)
    (alike : ∀ b, field.load value a = .ok b → field.load value' a = .ok b)
    (loaded : loadMembers fields none [] ((.ok name, value) :: ms) a = .ok a') :
    loadMembers fields none [] ((.ok name, value') :: ms) a = .ok a' := by
  obtain ⟨distinct, -, b, first, rest⟩ := loadMembers_eq_ok.1 loaded
  obtain ⟨apart, distinct⟩ := List.pairwise_cons.1 distinct
  cases first with
  | pass unknown => cases known.symm.trans unknown
  | field known' loaded =>
    obtain rfl := Option.some.inj (known.symm.trans known')
    exact loadMembers_eq_ok.2 ⟨List.pairwise_cons.2 ⟨apart, distinct⟩, by simp, b,
      .field known (alike b loaded), rest⟩

/-- The member that fills a field may be taken for the last one. -/
theorem loadMembers_last {name : String} {value : Document} {field : Field α}
    (commutes : fields.Pairwise Field.Commutes) (known : fields.find? (·.name == name) = some field)
    (mem : (.ok name, value) ∈ ms) (loaded : loadMembers fields none [] ms a = .ok a') :
    ∃ b, field.load value b = .ok a' := by
  obtain ⟨before, after, rfl⟩ := List.append_of_mem mem
  have last := (List.perm_append_singleton (.ok name, value) (before ++ after)).symm
  have perm := List.perm_middle.trans last
  obtain ⟨-, -, folds⟩ := loadMembers_eq_ok.1 (loadMembers_perm commutes perm loaded)
  obtain ⟨b, -, last⟩ := folds_concat.1 folds
  cases last with
  | pass unknown => cases known.symm.trans unknown
  | field known' loaded =>
    obtain rfl := Option.some.inj (known.symm.trans known')
    exact ⟨b, loaded⟩

end

/-- Each of the seven rules is a field of its own. -/
theorem commutes_rulesFields : rulesFields.Pairwise Field.Commutes := by
  simp only [rulesFields, List.pairwise_cons, List.forall_mem_cons]
  and_intros
  all_goals first | exact Field.commutes_of_load fun _ _ _ => rfl | simp

/-- So is each member of whole settings. -/
theorem commutes_settingsFields : settingsFields.Pairwise Field.Commutes := by
  simp only [settingsFields, List.pairwise_cons, List.forall_mem_cons]
  and_intros
  all_goals first | exact Field.commutes_of_load fun _ _ _ => rfl | simp

/-! ### Edited members -/

/-- Whether what is loaded from one document is also loaded from the other. -/
def Alike {β : Type} (load : Document → Load β) (d d' : Document) : Prop :=
  ∀ b, load d = .ok b → load d' = .ok b

/-- What is loaded alike is set alike. -/
theorem alike_of_set {α β : Type} {load : Document → Load β} {set : α → β → α} {d d' : Document}
    (alike : Alike load d d') (a : α) :
    Alike (fun d => (do return set a (← load d))) d d' := by
  intro b loaded
  obtain ⟨x, here, rfl⟩ := set_eq_ok.1 loaded
  exact set_eq_ok.2 ⟨x, alike x here, rfl⟩

/-- Maps of short names are loaded from dictionaries. -/
theorem alike_loadPrefixes {d d' : Document} (alike : Alike loadDictionary d d') :
    Alike loadPrefixes d d' := by
  intro m loaded
  obtain ⟨x, here, rfl⟩ := set_eq_ok.1 loaded
  exact set_eq_ok.2 ⟨x, alike x here, rfl⟩

section
variable {α : Type} {fields : List (Field α)} {before after : List Member} {a a' : α} {name : String}
  {value value' : Document}

/-- An unknown member may be put in anywhere. -/
theorem loadMembers_insert (commutes : fields.Pairwise Field.Commutes)
    (unknown : fields.find? (·.name == name) = none) (sound : value.defect? = none)
    (loaded : loadMembers fields none [] (before ++ after) a = .ok a') :
    loadMembers fields none [] (before ++ (.ok name, value) :: after) a = .ok a' :=
  loadMembers_perm commutes List.perm_middle.symm (loadMembers_cons_unknown unknown sound loaded)

/-- A value may be replaced wherever it stands. -/
theorem loadMembers_replace (commutes : fields.Pairwise Field.Commutes) {field : Field α}
    (known : fields.find? (·.name == name) = some field)
    (alike : ∀ a, Alike (field.load · a) value value')
    (loaded : loadMembers fields none [] (before ++ (.ok name, value) :: after) a = .ok a') :
    loadMembers fields none [] (before ++ (.ok name, value') :: after) a = .ok a' :=
  loadMembers_perm commutes List.perm_middle.symm
    (loadMembers_cons_known known (alike a) (loadMembers_perm commutes List.perm_middle loaded))

end

theorem find?_eq_none_of_names {α : Type} {fields : List (Field α)} {name : String}
    (unknown : name ∉ fields.map (·.name)) : fields.find? (·.name == name) = none := by
  rw [List.find?_eq_none]
  intro field mem same
  exact unknown (List.mem_map.2 ⟨field, mem, beq_iff_eq.1 same⟩)

/-! ### Texts that are loaded -/

/-- Whether nothing is loaded from a document that breaks. -/
def Rejects {β : Type} (load : Document → Load β) : Prop := ∀ d b, load d = .ok b → ¬d.Breaks

/-- `true` or `false`, and nothing behind it that is not JSON. -/
theorem rejects_loadFlag : Rejects loadFlag := by
  intro d b loaded breaks
  cases breaks <;> cases loaded

theorem rejects_loadText : Rejects loadText := by
  intro d b loaded breaks
  cases breaks <;> cases loaded

theorem rejects_loadSize : Rejects loadSize := by
  intro d b loaded breaks
  cases breaks <;> cases loaded

/-- A field rejects what the load of its value rejects. -/
theorem rejects_of_set {β γ : Type} {load : Document → Load β} {set : β → γ} (rejects : Rejects load) :
    Rejects fun d => (do return set (← load d)) := by
  intro d b loaded
  obtain ⟨x, here, -⟩ := set_eq_ok.1 loaded
  exact rejects d x here

/-- A dictionary is loaded to the end of its object. -/
theorem sound_of_loadBindings {ending : Option Defect} {ms : List Member} {d d' : Dictionary}
    (loaded : loadBindings ending d ms = .ok d') : ending = none ∧ ∀ m ∈ ms, ¬m.2.Breaks := by
  induction ms generalizing d with
  | nil => exact ⟨(loadEnding_eq_ok.1 loaded).1, by simp⟩
  | cons m ms ih =>
    simp only [loadBindings, bind_eq_ok] at loaded
    obtain ⟨name, -, i, here, rest⟩ := loaded
    obtain ⟨ended, sound⟩ := ih rest
    exact ⟨ended, List.forall_mem_cons.2 ⟨rejects_loadText _ _ here, sound⟩⟩

theorem rejects_loadDictionary : Rejects loadDictionary := by
  intro d b loaded breaks
  cases breaks with
  | scalar => cases loaded
  | arrayEnding => cases loaded
  | item => cases loaded
  | objectEnding => cases (sound_of_loadBindings loaded).1
  | member m mem breaks => exact (sound_of_loadBindings loaded).2 m mem breaks

section
variable {α : Type} {fields : List (Field α)} {ending : Option Defect}

/-- By induction on the items: those that no field is set to are passed over to the end of the
    array. -/
theorem sound_of_loadItems (rejects : ∀ field ∈ fields, ∀ a, Rejects (field.load · a))
    {items : List Document} {a a' : α} (loaded : loadItems ending fields items a = .ok a') :
    ending = none ∧ ∀ item ∈ items, ¬item.Breaks := by
  induction items generalizing fields a with
  | nil =>
    rw [loadItems] at loaded
    exact ⟨(loadEnding_eq_ok.1 loaded).1, by simp⟩
  | cons item items ih =>
    cases fields with
    | nil => cases loaded
    | cons field fields =>
      obtain ⟨rejects, others⟩ := List.forall_mem_cons.1 rejects
      obtain ⟨b, here, rest⟩ := bind_eq_ok.1 loaded
      obtain ⟨ended, sound⟩ := ih others rest
      exact ⟨ended, List.forall_mem_cons.2 ⟨rejects a item b here, sound⟩⟩

/-- By induction on the members: unknown ones are passed over, known ones are loaded. -/
theorem sound_of_loadMembers (rejects : ∀ field ∈ fields, ∀ a, Rejects (field.load · a))
    {ms : List Member} {given : List String} {a a' : α}
    (loaded : loadMembers fields ending given ms a = .ok a') :
    ending = none ∧ ∀ m ∈ ms, ¬m.2.Breaks := by
  induction ms generalizing given a with
  | nil =>
    rw [loadMembers] at loaded
    exact ⟨(loadEnding_eq_ok.1 loaded).1, by simp⟩
  | cons m ms ih =>
    rw [List.forall_mem_cons]
    obtain ⟨name, -, ⟨-, passed, rest⟩ | ⟨field, b, known, -, here, rest⟩⟩ :=
      loadMembers_cons_eq_ok.1 loaded
    · obtain ⟨ended, sound⟩ := ih rest
      exact ⟨ended, fun breaks => breaks.defect?_ne_none passed, sound⟩
    · obtain ⟨ended, sound⟩ := ih rest
      exact ⟨ended, rejects field (List.mem_of_find?_eq_some known) a m.2 b here, sound⟩

/-- A record rejects what one of its fields rejects, and whatever is not closed. -/
theorem rejects_loadRecord (rejects : ∀ field ∈ fields, ∀ a, Rejects (field.load · a)) (wanted : Wanted)
    (initial : α) : Rejects (loadRecord wanted fields initial) := by
  intro d b loaded breaks
  cases breaks with
  | scalar => cases loaded
  | arrayEnding => cases (sound_of_loadItems rejects loaded).1
  | item item mem breaks => exact (sound_of_loadItems rejects loaded).2 item mem breaks
  | objectEnding => cases (sound_of_loadMembers rejects loaded).1
  | member m mem breaks => exact (sound_of_loadMembers rejects loaded).2 m mem breaks

end

theorem rejects_rulesFields : ∀ field ∈ rulesFields, ∀ r, Rejects (field.load · r) := by
  simp only [rulesFields, List.forall_mem_cons]
  refine ⟨?_, ?_, ?_, ?_, ?_, ?_, by simp⟩ <;> intro r
  · exact rejects_of_set rejects_loadFlag
  · exact rejects_of_set rejects_loadFlag
  · exact rejects_of_set rejects_loadFlag
  · exact rejects_of_set rejects_loadText
  · exact rejects_of_set (rejects_of_set rejects_loadDictionary)
  · exact rejects_of_set rejects_loadSize

theorem rejects_settingsFields : ∀ field ∈ settingsFields, ∀ s, Rejects (field.load · s) := by
  simp only [settingsFields, List.forall_mem_cons]
  refine ⟨?_, ?_, ?_, by simp⟩ <;> intro s
  · exact rejects_of_set (rejects_loadRecord rejects_rulesFields .rules {})
  · exact rejects_of_set rejects_loadDictionary
  · exact rejects_of_set rejects_loadDictionary

/-- Of a text that a codec reads, the settings are what its document is loaded as. -/
theorem ofRead_eq_ok {codec : Codec} {d : Document} {text : String} (written : codec.IsTextOf d text)
    {s : Settings} :
    ofRead (codec.read text) = .ok s ↔ loadRecord .settings settingsFields {} d = .ok s := by
  rw [codec.read_eq written, ofRead, loadRead]
  simp [bind_eq_ok, loadEnding]

/-- Settings are loaded from JSON text only. -/
theorem exists_isTextOf_of_ofRead {codec : Codec} {text : String} {s : Settings}
    (loaded : ofRead (codec.read text) = .ok s) : ∃ d, codec.IsTextOf d text := by
  obtain ⟨s', here, ended⟩ := bind_eq_ok.1 loaded
  have whole : codec.read text = ((codec.read text).1, none) :=
    Prod.ext rfl (loadEnding_eq_ok.1 ended).1
  have sound := rejects_loadRecord rejects_settingsFields .settings {} _ s' here
  exact ⟨_, codec.isTextOf_read whole sound⟩

end ContextualQuery.Settings
