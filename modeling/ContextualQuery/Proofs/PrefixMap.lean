import ContextualQuery.PrefixMap
import ContextualQuery.Proofs.Lowercase

/-! What the operations on declared short names do to what a name is bound to.

    All names of a map that is made by these operations are in lower case (`Lower`), so a name is
    found as soon as it is lower-cased itself. -/

namespace ContextualQuery

namespace Dictionary

/-- A key that is smaller than all others is not there. -/
theorem lookup_eq_none_of_lt {k : String} {entries : List (String × String)}
    (below : ∀ p ∈ entries, k < p.1) : entries.lookup k = none := by
  induction entries with
  | nil => rfl
  | cons p entries ih =>
    obtain ⟨front, rest⟩ := List.forall_mem_cons.1 below
    rw [lookup_cons_entry, if_neg (String.ne_of_lt front), ih rest]

theorem mem_of_lookup {k v : String} {entries : List (String × String)}
    (h : entries.lookup k = some v) : (k, v) ∈ entries := by
  induction entries with
  | nil => simp at h
  | cons p entries ih =>
    rw [lookup_cons_entry] at h
    split at h
    next same =>
      obtain rfl := Option.some.inj h
      exact same ▸ List.mem_cons_self
    next => exact List.mem_cons_of_mem _ (ih h)

/-- Of two ascending lists that answer alike, neither starts with a smaller key than the other. -/
theorem not_lt_of_lookup_eq {k v k' v' : String} {rest rest' : List (String × String)}
    (above : ∀ p ∈ rest, k < p.1)
    (same : ((k', v') :: rest').lookup k' = ((k, v) :: rest).lookup k') : ¬k' < k := by
  intro lt
  have unbound : ((k, v) :: rest).lookup k' = none := by
    refine lookup_eq_none_of_lt (List.forall_mem_cons.2 ⟨lt, fun p hp => ?_⟩)
    exact String.lt_trans lt (above p hp)
  rw [unbound, lookup_cons_entry, if_pos rfl] at same
  simp at same

/-- By induction on both lists: their first keys are equal, hence their first values, and the rests
    answer alike. -/
theorem eq_of_lookup_eq : ∀ {entries entries' : List (String × String)},
    entries.Pairwise (·.1 < ·.1) → entries'.Pairwise (·.1 < ·.1) →
      (∀ k, entries.lookup k = entries'.lookup k) → entries = entries'
  | [], [], _, _, _ => rfl
  | [], (k, v) :: rest, _, _, same => by
    have := same k
    rw [lookup_cons_entry, if_pos rfl] at this
    simp at this
  | (k, v) :: rest, [], _, _, same => by
    have := same k
    rw [lookup_cons_entry, if_pos rfl] at this
    simp at this
  | (k, v) :: rest, (k', v') :: rest', ascending, ascending', same => by
    obtain ⟨above, tail⟩ := List.pairwise_cons.1 ascending
    obtain ⟨above', tail'⟩ := List.pairwise_cons.1 ascending'
    have key : k = k' :=
      String.le_antisymm (String.not_lt.1 (not_lt_of_lookup_eq above (same k').symm))
        (String.not_lt.1 (not_lt_of_lookup_eq above' (same k)))
    subst key
    have value : v = v' := by simpa [lookup_cons_entry] using same k
    subst value
    refine congrArg _ (eq_of_lookup_eq tail tail' fun x => ?_)
    by_cases first : x = k
    · subst first
      rw [lookup_eq_none_of_lt above, lookup_eq_none_of_lt above']
    · simpa [lookup_cons_entry, first] using same x

/-- An entry above all others goes to the end. -/
theorem insertEntry_of_above {key value : String} {entries : List (String × String)}
    (above : ∀ p ∈ entries, p.1 < key) :
    insertEntry key value entries = entries ++ [(key, value)] := by
  induction entries with
  | nil => rfl
  | cons p entries ih =>
    obtain ⟨first, rest⟩ := List.forall_mem_cons.1 above
    rw [insertEntry, if_neg (String.lt_asymm first), if_neg (String.ne_of_lt first).symm, ih rest]
    rfl

/-- Dictionaries are equal if they bind every key alike. -/
theorem ext_get? {d d' : Dictionary} (same : ∀ k, d.get? k = d'.get? k) : d = d' := by
  obtain ⟨entries, ascending⟩ := d
  obtain ⟨entries', ascending'⟩ := d'
  obtain rfl := eq_of_lookup_eq ascending ascending' same
  rfl

/-- Putting in ascending pairs one after the other appends them. -/
theorem entries_foldl_insert {pairs : List (String × String)} {d : Dictionary}
    (ascending : (d.entries ++ pairs).Pairwise (·.1 < ·.1)) :
    (pairs.foldl (fun d p => d.insert p.1 p.2) d).entries = d.entries ++ pairs := by
  induction pairs generalizing d with
  | nil => simp
  | cons q pairs ih =>
    have inserted : (d.insert q.1 q.2).entries = d.entries ++ [q] :=
      insertEntry_of_above fun p hp =>
        (List.pairwise_append.1 ascending).2.2 p hp q List.mem_cons_self
    rw [List.foldl_cons, ih (by rwa [inserted, ← List.append_cons]), inserted, ← List.append_cons]

/-- A dictionary is made of its entries. -/
theorem ofList_entries (d : Dictionary) : ofList d.entries = d := by
  have entries := entries_foldl_insert (d := empty) d.ascending
  obtain ⟨pairs, ascending⟩ := d
  rw [ofList, Dictionary.mk.injEq]
  exact entries

/-- Entries under two keys may be put in in either order. -/
theorem insert_comm (d : Dictionary) {key key' : String} (other : key ≠ key')
    (value value' : String) :
    (d.insert key value).insert key' value' = (d.insert key' value').insert key value := by
  refine ext_get? fun k => ?_
  rw [get?_insert, get?_insert, get?_insert, get?_insert]
  by_cases here : k = key
  · rw [if_pos here, if_neg (here ▸ other), if_pos here]
  · rw [if_neg here, if_neg here]

/-- There is one entry under a key. -/
theorem eq_of_key_eq (d : Dictionary) {p q : String × String} (hp : p ∈ d.entries)
    (hq : q ∈ d.entries) (same : p.1 = q.1) : p = q := by
  refine List.Pairwise.forall_of_forall_of_flip (R := fun p q => p.1 = q.1 → p = q)
    (fun _ _ _ => rfl) ?_ ?_ hp hq same
  · exact d.ascending.imp fun lt same => absurd same (String.ne_of_lt lt)
  · exact d.ascending.imp fun lt same => absurd same.symm (String.ne_of_lt lt)

/-- The entries are the answers. -/
theorem mem_entries_iff (d : Dictionary) {k v : String} :
    (k, v) ∈ d.entries ↔ d.get? k = some v := by
  refine ⟨fun mem => ?_, mem_of_lookup⟩
  cases bound : d.entries.lookup k with
  | none =>
    have unbound := List.lookup_eq_none_iff.1 bound (k, v) mem
    simp at unbound
  | some v' =>
    obtain ⟨-, rfl⟩ := Prod.mk.inj (d.eq_of_key_eq mem (mem_of_lookup bound) rfl)
    exact bound

/-- The order in which its entries are bound makes no difference. -/
theorem ofList_of_perm {d : Dictionary} {pairs : List (String × String)}
    (perm : pairs.Perm d.entries) : ofList pairs = d := by
  have known {p : String × String} (hp : p ∈ pairs) : p ∈ d.entries := perm.mem_iff.1 hp
  refine (perm.foldl_eq' (fun p hp q hq m => ?_) empty).trans d.ofList_entries
  by_cases same : p.1 = q.1
  · rw [d.eq_of_key_eq (known hp) (known hq) same]
  · exact m.insert_comm same _ _

end Dictionary

namespace PrefixMap

open Unicode

/-! ### Names in lower case -/

/-- Whether all names of a map are in lower case. -/
def Lower (m : PrefixMap) : Prop := ∀ p ∈ m.entries, lowercase p.1 = p.1

theorem lower_empty : empty.Lower := by
  intro p hp
  cases hp

/-- Names are lower-cased when they are put in. -/
theorem Lower.insert {m : PrefixMap} (h : m.Lower) (name identifier : String) :
    (m.insert name identifier).Lower := by
  intro p hp
  rcases Dictionary.mem_insertEntry hp with rfl | hp
  · exact lowercase_lowercase name
  · exact h p hp

theorem Lower.insertNew {m : PrefixMap} (h : m.Lower) (name identifier : String) :
    (m.insertNew name identifier).Lower := by
  unfold PrefixMap.insertNew
  split
  · exact h
  · exact h.insert name identifier

theorem Lower.foldl_insert {m : PrefixMap} (h : m.Lower) (pairs : List (String × String)) :
    (pairs.foldl (fun m p => m.insert p.1 p.2) m).Lower := by
  induction pairs generalizing m with
  | nil => exact h
  | cons p pairs ih => exact ih (h.insert p.1 p.2)

theorem lower_ofList (pairs : List (String × String)) : (ofList pairs).Lower :=
  lower_empty.foldl_insert pairs

/-- Names that come from an outer map are in lower case if they were there. -/
theorem Lower.withDefaults {m : PrefixMap} (h : m.Lower) (outer : PrefixMap) :
    (m.withDefaults outer).Lower := by
  unfold PrefixMap.withDefaults
  generalize outer.entries = pairs
  induction pairs generalizing m with
  | nil => exact h
  | cons p pairs ih => exact ih (h.insertNew p.1 p.2)

/-! ### Entries -/

theorem ext_entries {m m' : PrefixMap} (same : m.entries = m'.entries) : m = m' := by
  obtain ⟨⟨entries, _⟩⟩ := m
  obtain ⟨⟨entries', _⟩⟩ := m'
  obtain rfl : entries = entries' := same
  rfl

/-- The entries are what the map answers to names in lower case. -/
theorem mem_entries_iff {m : PrefixMap} (lower : m.Lower) {name identifier : String} :
    (name, identifier) ∈ m.entries ↔ lowercase name = name ∧ m.get? name = some identifier := by
  constructor
  · intro mem
    have small : lowercase name = name := lower _ mem
    refine ⟨small, ?_⟩
    rw [get?, small]
    exact m.bindings.mem_entries_iff.1 mem
  · rintro ⟨small, bound⟩
    rw [get?, small] at bound
    exact m.bindings.mem_entries_iff.2 bound

/-- An entry was there before or has just been put in. -/
theorem mem_entries_insert {m : PrefixMap} {p q : String × String} (lower : lowercase q.1 = q.1)
    (h : p ∈ (m.insert q.1 q.2).entries) : p ∈ m.entries ∨ p = q := by
  rcases Dictionary.mem_insertEntry h with rfl | h
  · exact .inr (Prod.ext lower rfl)
  · exact .inl h

theorem mem_entries_insertNew {m : PrefixMap} {p q : String × String} (lower : lowercase q.1 = q.1)
    (h : p ∈ (m.insertNew q.1 q.2).entries) : p ∈ m.entries ∨ p = q := by
  unfold PrefixMap.insertNew at h
  split at h
  · exact .inl h
  · exact mem_entries_insert lower h

/-- Entries of a map that was made from pairs are among the pairs. -/
theorem mem_entries_ofList {p : String × String} {pairs : List (String × String)}
    (lower : ∀ p ∈ pairs, lowercase p.1 = p.1) (h : p ∈ (ofList pairs).entries) : p ∈ pairs := by
  suffices known : ∀ m : PrefixMap, p ∈ (pairs.foldl (fun m p => m.insert p.1 p.2) m).entries →
      p ∈ m.entries ∨ p ∈ pairs from (known empty h).resolve_left (by rintro ⟨⟩)
  clear h
  induction pairs with
  | nil => exact fun m h => .inl h
  | cons q pairs ih =>
    intro m h
    obtain ⟨first, rest⟩ := List.forall_mem_cons.1 lower
    rw [List.mem_cons, ← or_assoc]
    exact (ih rest _ h).imp_left (mem_entries_insert first)

/-- An entry is a declaration of its own or one from outside. -/
theorem mem_entries_withDefaults {m outer : PrefixMap} (lower : outer.Lower) {p : String × String}
    (h : p ∈ (m.withDefaults outer).entries) : p ∈ m.entries ∨ p ∈ outer.entries := by
  unfold PrefixMap.withDefaults at h
  unfold Lower at lower
  generalize outer.entries = pairs at h lower ⊢
  induction pairs generalizing m with
  | nil => exact .inl h
  | cons q pairs ih =>
    obtain ⟨first, rest⟩ := List.forall_mem_cons.1 lower
    rw [List.mem_cons, ← or_assoc]
    exact (ih h rest).imp_left (mem_entries_insertNew first)

theorem entries_insert_of_above {m : PrefixMap} {name identifier : String}
    (lower : lowercase name = name) (above : ∀ p ∈ m.entries, p.1 < name) :
    (m.insert name identifier).entries = m.entries ++ [(name, identifier)] := by
  change Dictionary.insertEntry (lowercase name) identifier m.entries = _
  rw [lower]
  exact Dictionary.insertEntry_of_above above

/-- Names in lower case are put in under themselves. -/
theorem bindings_foldl_insert {pairs : List (String × String)}
    (lower : ∀ p ∈ pairs, lowercase p.1 = p.1) (m : PrefixMap) :
    (pairs.foldl (fun m p => m.insert p.1 p.2) m).bindings =
      pairs.foldl (fun d p => d.insert p.1 p.2) m.bindings := by
  induction pairs generalizing m with
  | nil => rfl
  | cons q pairs ih =>
    obtain ⟨first, rest⟩ := List.forall_mem_cons.1 lower
    rw [List.foldl_cons, ih rest, List.foldl_cons, insert, first]

/-- A map in lower case is made of its entries. -/
theorem ofList_entries {m : PrefixMap} (lower : m.Lower) : ofList m.entries = m :=
  ext_entries (congrArg Dictionary.entries
    ((bindings_foldl_insert lower empty).trans m.bindings.ofList_entries))

/-! ### Looking up -/

@[simp] theorem get?_empty (name : String) : empty.get? name = none := rfl

theorem contains_eq (m : PrefixMap) (name : String) : m.contains name = (m.get? name).isSome := rfl

/-- Names are looked up in lower case, so `DC` and `dc` are one. -/
theorem get?_congr (m : PrefixMap) {a b : String} (same : lowercase a = lowercase b) :
    m.get? a = m.get? b := by
  rw [get?, get?, same]

/-- A name that is there already keeps its identifier. -/
theorem get?_insertNew (m : PrefixMap) (name identifier n : String) :
    (m.insertNew name identifier).get? n =
      (m.get? n).or (if lowercase n = lowercase name then some identifier else none) := by
  unfold insertNew
  rw [contains_eq]
  by_cases same : lowercase n = lowercase name
  · rw [← m.get?_congr same]
    cases bound : m.get? n with
    | some i => simp [bound]
    | none => simp [get?_insert, same]
  · rw [if_neg same, Option.or_none]
    split
    · rfl
    · rw [get?_insert, if_neg same]

/-- Of several pairs for one name the last one counts. -/
theorem get?_foldl_insert (m : PrefixMap) (pairs : List (String × String)) (name : String) :
    (pairs.foldl (fun m p => m.insert p.1 p.2) m).get? name =
      ((pairs.reverse.find? fun p => lowercase name = lowercase p.1).map (·.2)).or (m.get? name) := by
  induction pairs generalizing m with
  | nil => simp
  | cons p pairs ih =>
    rw [List.foldl_cons, ih, List.reverse_cons, List.find?_append, get?_insert]
    cases List.find? _ pairs.reverse with
    | some q => simp
    | none => by_cases same : lowercase name = lowercase p.1 <;> simp [same]

/-- Of several declarations of one name in a list the last one counts. -/
theorem get?_ofList (pairs : List (String × String)) (name : String) :
    (ofList pairs).get? name =
      (pairs.reverse.find? fun p => lowercase name = lowercase p.1).map (·.2) := by
  rw [ofList, get?_foldl_insert]
  simp

/-- Of several pairs that are put in only if new, the first one counts. -/
theorem get?_foldl_insertNew (m : PrefixMap) (name : String) :
    ∀ pairs : List (String × String), (∀ p ∈ pairs, lowercase p.1 = p.1) →
      (pairs.foldl (fun m p => m.insertNew p.1 p.2) m).get? name =
        (m.get? name).or (pairs.lookup (lowercase name)) := by
  intro pairs
  induction pairs generalizing m with
  | nil => simp
  | cons p pairs ih =>
    intro lower
    rw [List.foldl_cons, ih _ fun q hq => lower q (List.mem_cons_of_mem _ hq), get?_insertNew,
      lower p List.mem_cons_self, Dictionary.lookup_cons_entry, Option.or_assoc]
    by_cases same : lowercase name = p.1 <;> simp [same]

/-- What is bound already stays, and the rest is bound as in the other map. -/
theorem get?_withDefaults (m : PrefixMap) {outer : PrefixMap} (lower : outer.Lower) (name : String) :
    (m.withDefaults outer).get? name = (m.get? name).or (outer.get? name) :=
  get?_foldl_insertNew m name outer.entries lower

/-- Maps in lower case are equal if they bind every name alike. -/
theorem ext_get? {m m' : PrefixMap} (lower : m.Lower) (lower' : m'.Lower)
    (same : ∀ name, m.get? name = m'.get? name) : m = m' := by
  have unbound {m : PrefixMap} (lower : m.Lower) {k : String} (capital : lowercase k ≠ k) :
      m.bindings.get? k = none := by
    cases bound : m.bindings.get? k with
    | none => rfl
    | some v => exact absurd (lower _ (Dictionary.mem_of_lookup bound)) capital
  have bindings : m.bindings = m'.bindings := by
    refine Dictionary.ext_get? fun k => ?_
    by_cases small : lowercase k = k
    · have := same k
      rwa [get?, get?, small] at this
    · rw [unbound lower small, unbound lower' small]
  obtain ⟨d⟩ := m
  obtain ⟨d'⟩ := m'
  obtain rfl : d = d' := bindings
  rfl

theorem empty_withDefaults {m : PrefixMap} (lower : m.Lower) : empty.withDefaults m = m :=
  ext_get? (lower_empty.withDefaults m) lower fun name => get?_withDefaults empty lower name

end PrefixMap

end ContextualQuery
