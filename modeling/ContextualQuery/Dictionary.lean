/-! Dictionaries from text to text.

    Keys stand in ascending order of code points, each once, so listing a dictionary gives its keys
    in order. `pairwise_insertEntry` keeps that order, and `get?_insert` says that binding a key
    changes what that key is bound to and nothing else. -/

namespace ContextualQuery

/-- A finite map from keys to texts, as its bindings in ascending order of keys. -/
structure Dictionary where
  entries : List (String × String)
  ascending : entries.Pairwise (·.1 < ·.1)
  deriving DecidableEq

namespace Dictionary

/-- Puts a binding in its place, over a binding of the same key. -/
def insertEntry (key value : String) : List (String × String) → List (String × String)
  | [] => [(key, value)]
  | (k, v) :: rest =>
    if key < k then (key, value) :: (k, v) :: rest
    else if key = k then (key, value) :: rest
    else (k, v) :: insertEntry key value rest

theorem mem_insertEntry {key value : String} {p : String × String} :
    ∀ {entries : List (String × String)}, p ∈ insertEntry key value entries →
      p = (key, value) ∨ p ∈ entries
  | [], h => by simpa [insertEntry] using h
  | (k, v) :: rest, h => by
    unfold insertEntry at h
    split at h
    · simpa using h
    · split at h
      · rcases List.mem_cons.1 h with h | h
        · exact .inl h
        · exact .inr (List.mem_cons_of_mem _ h)
      · rcases List.mem_cons.1 h with h | h
        · exact .inr (h ▸ List.mem_cons_self)
        · exact (mem_insertEntry h).imp_right (List.mem_cons_of_mem _)

theorem pairwise_insertEntry (key value : String) :
    ∀ {entries : List (String × String)}, entries.Pairwise (·.1 < ·.1) →
      (insertEntry key value entries).Pairwise (·.1 < ·.1)
  | [], _ => by simp [insertEntry]
  | (k, v) :: rest, h => by
    obtain ⟨above, rest_ascending⟩ := List.pairwise_cons.1 h
    unfold insertEntry
    split
    next below =>
      refine List.pairwise_cons.2 ⟨fun p hp => ?_, h⟩
      rcases List.mem_cons.1 hp with rfl | hp
      · exact below
      · exact String.lt_trans below (above p hp)
    next not_below =>
      split
      next same => exact List.pairwise_cons.2 ⟨fun p hp => same ▸ above p hp, rest_ascending⟩
      next different =>
        refine List.pairwise_cons.2 ⟨fun p hp => ?_, pairwise_insertEntry key value rest_ascending⟩
        rcases mem_insertEntry hp with rfl | hp
        · exact String.not_le.1 fun le =>
            different (String.le_antisymm le (String.not_lt.1 not_below))
        · exact above p hp

/-- The dictionary without bindings. -/
def empty : Dictionary := ⟨[], .nil⟩

instance : Inhabited Dictionary := ⟨empty⟩

/-- Binds a key, in place of an earlier binding of it. -/
def insert (d : Dictionary) (key value : String) : Dictionary :=
  ⟨insertEntry key value d.entries, pairwise_insertEntry key value d.ascending⟩

/-- What a key is bound to. -/
def get? (d : Dictionary) (key : String) : Option String := d.entries.lookup key

/-- Whether a key is bound. -/
def contains (d : Dictionary) (key : String) : Bool := (d.get? key).isSome

/-- The number of keys. -/
def size (d : Dictionary) : Nat := d.entries.length

/-- Whether nothing is bound. -/
def isEmpty (d : Dictionary) : Bool := d.entries.isEmpty

/-- Binds pair after pair: of two pairs with one key the later counts. -/
def ofList (pairs : List (String × String)) : Dictionary :=
  pairs.foldl (fun d p => d.insert p.1 p.2) empty

/-! ### Looking up -/

theorem lookup_cons_entry (k key value : String) (entries : List (String × String)) :
    ((key, value) :: entries).lookup k = if k = key then some value else entries.lookup k := by
  by_cases h : k = key
  · simp [h]
  · rw [List.lookup_cons, beq_eq_false_iff_ne.2 h, if_neg h]

theorem lookup_insertEntry (key value k : String) :
    ∀ entries : List (String × String),
      (insertEntry key value entries).lookup k = if k = key then some value else entries.lookup k
  | [] => lookup_cons_entry k key value []
  | (k', v) :: rest => by
    unfold insertEntry
    split
    · exact lookup_cons_entry k key value _
    · split
      next same =>
        rw [lookup_cons_entry, lookup_cons_entry, ← same]
        split <;> rfl
      next different =>
        rw [lookup_cons_entry, lookup_cons_entry, lookup_insertEntry key value k rest]
        by_cases h : k = k'
        · rw [if_pos h, if_pos h, if_neg fun same => different (same.symm.trans h)]
        · rw [if_neg h, if_neg h]

/-- Binding a key changes what that key is bound to, and nothing else. -/
theorem get?_insert (d : Dictionary) (key value k : String) :
    (d.insert key value).get? k = if k = key then some value else d.get? k :=
  lookup_insertEntry key value k d.entries

theorem get?_empty (k : String) : empty.get? k = none := rfl

end Dictionary

end ContextualQuery
