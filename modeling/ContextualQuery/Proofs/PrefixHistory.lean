import ContextualQuery.Proofs.SettingsRoundTrip
import Mathlib.Data.Finset.Card

/-! What a map of short names says of the updates that it was made by.

    An insertion binds a name whatever it was bound to, the other update only a name that is unbound.
    So the last insertion of a name counts, and the first of the other updates where it was never
    inserted. Names are the same name if they are the same in lower case.

        update        insert x 1   insertNew x 2   insert X 3   insertNew y 4   insertNew Y 5
        x is bound         1             1              3              3               3
        y is bound         -             -              -              4               4

    One update does to a map what it does to the history of the map (`get?_apply`,
    `boundTo_append_singleton`), and a map follows its history from then on (`Follows`). -/

namespace ContextualQuery

open Unicode

namespace PrefixMap

/-! ### Updates -/

/-- An update: binds a name, or binds it unless it is bound. -/
inductive Update where
  | insert (name identifier : String)
  | insertNew (name identifier : String)

namespace Update

/-- The name that an update is about. -/
def name : Update → String
  | .insert name _ | .insertNew name _ => name

/-- The map behind an update. -/
def apply (m : PrefixMap) : Update → PrefixMap
  | .insert name identifier => m.insert name identifier
  | .insertNew name identifier => (m.tryInsert name identifier).2

/-- What an update binds a name to, whatever it was bound to. -/
def overrides? (n : String) : Update → Option String
  | .insert name identifier => if lowercase n = lowercase name then some identifier else none
  | .insertNew _ _ => none

/-- What an update binds a name to if it was unbound. -/
def fills? (n : String) : Update → Option String
  | .insert _ _ => none
  | .insertNew name identifier => if lowercase n = lowercase name then some identifier else none

/-- The insertion of a pair. -/
def ofPair (p : String × String) : Update := .insert p.1 p.2

end Update

/-- What updates leave a name bound to: the last insertion of it counts, or else the first of the
    other updates. -/
def boundTo (us : List Update) (n : String) : Option String :=
  (us.reverse.findSome? (·.overrides? n)).or (us.findSome? (·.fills? n))

/-- The maps that are made by updates: from the map without names, from a list of pairs, or from a
    text, whose names are inserted in their order as written. -/
inductive Made : List Update → PrefixMap → Prop
  | empty : Made [] .empty
  | ofList (pairs : List (String × String)) : Made (pairs.map .ofPair) (.ofList pairs)
  | ofText {text : String} {m : PrefixMap} {d : Dictionary} (loaded : PrefixMap.ofText text = .ok m)
    (written : Settings.loadWhole Settings.loadDictionary text = .ok d) :
    Made (d.entries.map .ofPair) m
  | update {us : List Update} {m : PrefixMap} (made : Made us m) (u : Update) :
    Made (us ++ [u]) (u.apply m)

/-! ### Following a history -/

variable {us : List Update} {m : PrefixMap}

theorem get?_apply (m : PrefixMap) (u : Update) (n : String) :
    (u.apply m).get? n = ((u.overrides? n).or (m.get? n)).or (u.fills? n) := by
  cases u with
  | insert name identifier =>
    rw [Update.apply, get?_insert, Update.overrides?, Update.fills?, Option.or_none]
    split <;> rfl
  | insertNew name identifier =>
    rw [Update.apply, tryInsert_eq, get?_insertNew, Update.overrides?, Update.fills?, Option.none_or]

theorem boundTo_append_singleton (us : List Update) (u : Update) (n : String) :
    boundTo (us ++ [u]) n = ((u.overrides? n).or (boundTo us n)).or (u.fills? n) := by
  rw [boundTo, boundTo, List.reverse_append, List.findSome?_append, List.findSome?_append]
  simp only [List.reverse_singleton, List.findSome?_singleton, Option.or_assoc]

/-- A name is bound as soon as there is an update of it, in any case. -/
theorem isSome_boundTo {n : String} :
    (boundTo us n).isSome = true ↔ ∃ u ∈ us, lowercase n = lowercase u.name := by
  have found (u : Update) : (u.overrides? n).isSome = true ∨ (u.fills? n).isSome = true ↔
      lowercase n = lowercase u.name := by
    cases u <;> simp [Update.overrides?, Update.fills?, Update.name]
  rw [boundTo, Option.isSome_or, Bool.or_eq_true, List.findSome?_isSome_iff,
    List.findSome?_isSome_iff]
  simp only [List.mem_reverse, ← exists_or, ← and_or_left, found]

/-- Whether a map says what updates leave names bound to, all names being in lower case. -/
structure Follows (us : List Update) (m : PrefixMap) : Prop where
  lower : m.Lower
  get?_eq : ∀ n, m.get? n = boundTo us n

namespace Follows

theorem empty : Follows [] .empty := ⟨lower_empty, fun _ => rfl⟩

/-- A map that follows its history still does so behind one more update. -/
theorem apply (h : Follows us m) (u : Update) : Follows (us ++ [u]) (u.apply m) where
  lower := by
    cases u with
    | insert name identifier => exact h.lower.insert name identifier
    | insertNew name identifier =>
      rw [Update.apply, tryInsert_eq]
      exact h.lower.insertNew name identifier
  get?_eq n := by rw [get?_apply, h.get?_eq, boundTo_append_singleton]

theorem foldl_insert (h : Follows us m) (pairs : List (String × String)) :
    Follows (us ++ pairs.map .ofPair) (pairs.foldl (fun m p => m.insert p.1 p.2) m) := by
  induction pairs generalizing us m with
  | nil => simpa using h
  | cons p pairs ih =>
    rw [List.map_cons, List.append_cons]
    exact ih (h.apply (.ofPair p))

theorem ofList (pairs : List (String × String)) : Follows (pairs.map .ofPair) (.ofList pairs) :=
  empty.foldl_insert pairs

/-- The names of a map are those of its updates, in lower case. -/
theorem mem_names_iff (h : Follows us m) {n : String} :
    n ∈ m.names ↔ n ∈ us.map fun u => lowercase u.name := by
  have bound : n ∈ m.names ↔ lowercase n = n ∧ (m.get? n).isSome = true := by
    simp only [names, List.mem_map, Prod.exists, exists_and_right, exists_eq_right,
      mem_entries_iff h.lower, Option.isSome_iff_exists, exists_and_left]
  rw [bound, h.get?_eq, isSome_boundTo, List.mem_map]
  constructor
  · rintro ⟨small, u, hu, same⟩
    exact ⟨u, hu, same.symm.trans small⟩
  · rintro ⟨u, hu, rfl⟩
    exact ⟨lowercase_lowercase _, u, hu, lowercase_lowercase _⟩

theorem size_eq (h : Follows us m) : m.size = (us.map fun u => lowercase u.name).toFinset.card := by
  have once : m.names.Nodup :=
    List.Pairwise.map _ (fun _ _ lt => String.ne_of_lt lt) m.bindings.ascending
  have same : m.names.toFinset = (us.map fun u => lowercase u.name).toFinset := by
    ext n
    rw [List.mem_toFinset, List.mem_toFinset, h.mem_names_iff]
  rw [← same, List.toFinset_card_of_nodup once, names, List.length_map]
  rfl

end Follows

/-- What a text holds is bound name after name, in the order of the names as they are written. -/
theorem ofText_eq_ok {text : String} : PrefixMap.ofText text = .ok m ↔
    ∃ d, Settings.loadWhole Settings.loadDictionary text = .ok d ∧ .ofList d.entries = m := by
  simp only [PrefixMap.ofText, Settings.loadWhole, Settings.loadRead, Settings.loadPrefixes,
    Settings.bind_eq_ok]
  cases (Json.Document.ofText text).2 with
  | none =>
    simp [Settings.loadEnding, pure, Except.pure]
  | some defect => simp [Settings.loadEnding]

theorem follows_of_made (made : Made us m) : Follows us m := by
  induction made with
  | empty => exact .empty
  | ofList pairs => exact .ofList pairs
  | ofText loaded written =>
    obtain ⟨d, written', rfl⟩ := ofText_eq_ok.1 loaded
    obtain rfl := Except.ok.inj (written.symm.trans written')
    exact .ofList _
  | update _ u ih => exact ih.apply u

/-! ### Maps -/

/-- Whether a map binds names as its updates leave them, and an update as it says. -/
structure Tells (us : List Update) (m : PrefixMap) : Prop where
  ascending : m.entries.Pairwise (·.1 < ·.1)
  /-- What is listed is what names are bound to, and the names listed are in lower case. -/
  listed : ∀ n i, (n, i) ∈ m.entries ↔ lowercase n = n ∧ m.get? n = some i
  size : m.size = (us.map fun u => lowercase u.name).toFinset.card
  bound : ∀ n, m.get? n = boundTo us n
  contains : ∀ n, m.contains n = true ↔ ∃ i, m.get? n = some i
  /-- Whoever binds a name unless it is bound is told whether it was not. -/
  answer : ∀ n i, (m.tryInsert n i).1 = true ↔ m.contains n = false
  /-- An update changes what no other name is bound to. -/
  others : ∀ (u : Update) (n : String), lowercase n ≠ lowercase u.name → (u.apply m).get? n = m.get? n

theorem tells_of_follows (h : Follows us m) : Tells us m where
  ascending := m.bindings.ascending
  listed _ _ := mem_entries_iff h.lower
  size := h.size_eq
  bound := h.get?_eq
  contains n := by rw [contains_eq, Option.isSome_iff_exists]
  answer n i := by rw [tryInsert_eq, Bool.not_eq_true']
  others u n other := by
    rw [get?_apply]
    cases u with
    | insert name identifier =>
      rw [Update.name] at other
      rw [Update.overrides?, if_neg other, Update.fills?, Option.none_or, Option.or_none]
    | insertNew name identifier =>
      rw [Update.name] at other
      rw [Update.overrides?, Update.fills?, if_neg other, Option.none_or, Option.or_none]

/-- A map of short names is a map on names in lower case, whatever updates it is made by; and every
    map that a text holds is made by updates. -/
theorem tells_of_made : (∀ us m, Made us m → Tells us m) ∧
    ∀ text m, PrefixMap.ofText text = .ok m → ∃ us, Made us m := by
  refine ⟨fun us m made => tells_of_follows (follows_of_made made), fun text m loaded => ?_⟩
  obtain ⟨d, written, -⟩ := ofText_eq_ok.1 loaded
  exact ⟨_, .ofText loaded written⟩

/-- Names of a text that are the same in lower case, and a word that ends in a sigma. -/
theorem tells_of_made_sigma :
    let m : PrefixMap := .ofList [("ΟΔΟΣ", "2"), ("dc", "3"), ("ος", "4")]
    Made [.insert "DC" "1", .insert "Dc" "3", .insertNew "dC" "5", .insert "ΟΔΟΣ" "2",
      .insertNew "ΟΣ" "4"] m ∧
    Tells [.insert "DC" "1", .insert "Dc" "3", .insertNew "dC" "5", .insert "ΟΔΟΣ" "2",
      .insertNew "ΟΣ" "4"] m := by
  intro m
  have loaded : PrefixMap.ofText "\x7b\"Dc\": \"3\", \"DC\": \"1\"\x7d" =
      .ok (.ofList [("dc", "3")]) := by
    decide +kernel
  have written : Settings.loadWhole Settings.loadDictionary "\x7b\"Dc\": \"3\", \"DC\": \"1\"\x7d" =
      .ok (.ofList [("DC", "1"), ("Dc", "3")]) := by
    decide +kernel
  have made : Made _ _ := (((Made.ofText loaded written).update (.insertNew "dC" "5")).update
    (.insert "ΟΔΟΣ" "2")).update (.insertNew "ΟΣ" "4")
  have same : Update.apply (Update.apply (Update.apply (.ofList [("dc", "3")]) (.insertNew "dC" "5"))
      (.insert "ΟΔΟΣ" "2")) (.insertNew "ΟΣ" "4") = m := by
    decide +kernel
  rw [same] at made
  exact ⟨made, tells_of_made.1 _ _ made⟩

end PrefixMap

end ContextualQuery
