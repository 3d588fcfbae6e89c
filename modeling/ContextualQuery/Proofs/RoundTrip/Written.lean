import ContextualQuery.Proofs.RoundTrip.Trees

/-! The phrase that a tree is written as.

    Each triple stands between parentheses, and so does a node below another that has declarations or
    sort keys. So a level of the tree costs two scopes at most (`fits_phrase`), and the phrase builds
    the tree it was written for (`build_phrase`). -/

namespace ContextualQuery

open Lexemes Reading Unicode

variable {rules : Rules} {info : NodeInfo} {body : Phrase} {t : Node} {n depth : Nat}
  {groups : List Declarations}

/-- What a node is written as: its declarations, the node itself and its sort keys. -/
def NodeInfo.phrase (info : NodeInfo) (body : Phrase) : Phrase :=
  .scope info.prefixes.entries (if info.sortKeys.isEmpty then body else .sort body info.sortKeys)

/-- The same below another node, where nothing is added if nothing is attached to the node. -/
def NodeInfo.phraseBelow (info : NodeInfo) (body : Phrase) : Phrase :=
  if info.isScoped then info.phrase body else body

/-- What two trees joined by a boolean are written as. -/
def Phrase.joined (left : Phrase) (boolean : Boolean) (right : Phrase) : Phrase :=
  .scope [] (.join left boolean right)

/-- What a node is written as that stands below another. -/
def Node.phraseBelow : Node → Phrase
  | .clause info c => info.phraseBelow (.clause c)
  | .triple info left boolean right =>
    info.phraseBelow (.joined left.phraseBelow boolean right.phraseBelow)

/-- What a whole tree is written as. -/
def Node.phrase : Node → Phrase
  | .clause info c => info.phrase (.clause c)
  | .triple info left boolean right =>
    info.phrase (.joined left.phraseBelow boolean right.phraseBelow)

/-! ### The tree of the phrase -/

theorem NodeInfo.isScoped_eq_false (h : info.isScoped = false) :
    info.prefixes = .empty ∧ info.sortKeys = [] := by
  rw [isScoped, Bool.or_eq_false_iff, Bool.not_eq_false', Bool.not_eq_false'] at h
  exact ⟨PrefixMap.ext_entries (List.isEmpty_iff.1 h.1), List.isEmpty_iff.1 h.2⟩

/-- Only what has declarations or keys is printed in a scope of its own. -/
theorem NodeInfo.phrase_eq (info : NodeInfo) (body : Phrase) :
    info.phrase body =
      if info.isScoped then info.phraseBelow body else .scope [] (info.phraseBelow body) := by
  cases attached : info.isScoped with
  | true => simp [phraseBelow, attached]
  | false =>
    obtain ⟨prefixes, keys⟩ := isScoped_eq_false attached
    simp only [phrase, phraseBelow, attached, prefixes, keys]
    rfl

/-- A whole tree is written as it is below another, but with a scope around it in any case. -/
theorem Node.phrase_eq (t : Node) :
    t.phrase = if t.info.isScoped then t.phraseBelow else .scope [] t.phraseBelow := by
  cases t <;> exact NodeInfo.phrase_eq _ _

theorem NodeInfo.size_phraseBelow : (info.phraseBelow body).size = body.size := by
  rw [phraseBelow, phrase]
  split
  · rw [Phrase.size]
    split <;> rfl
  · rfl

/-- The printed phrase creates as many nodes as the tree has. -/
theorem size_phraseBelow (t : Node) : t.phraseBelow.size = t.count := by
  induction t with
  | clause info c => exact NodeInfo.size_phraseBelow
  | triple info left b right ih ih' =>
    rw [Node.phraseBelow, NodeInfo.size_phraseBelow, Phrase.joined, Phrase.size, Phrase.size, ih, ih']
    rfl

theorem size_phrase (t : Node) : t.phrase.size = t.count := by
  rw [Node.phrase_eq]
  split <;> exact size_phraseBelow t

theorem Node.sortBy_sortKeys (t : Node) : t.sortBy t.sortKeys = t := by
  cases t <;> rfl

/-- Sort keys and declarations are attached to the tree of what stands between them. -/
theorem NodeInfo.build_phraseBelow (lower : info.prefixes.Lower)
    (bare : (body.build n).sortKeys = []) :
    (info.phraseBelow body).build n =
      ((body.build n).sortBy info.sortKeys).declare info.prefixes := by
  have same : (body.build n).sortBy [] = body.build n := by rw [← bare, Node.sortBy_sortKeys]
  rw [phraseBelow]
  split
  next =>
    rw [phrase, Phrase.build, PrefixMap.ofList_entries lower]
    split
    next empty => rw [List.isEmpty_iff.1 empty, same]
    next => rfl
  next unscoped =>
    obtain ⟨prefixes, keys⟩ := isScoped_eq_false (Bool.eq_false_iff.2 unscoped)
    rw [prefixes, keys, Node.declare_empty, same]

/-- Declarations and keys that are attached to a bare node make it what it was. -/
theorem NodeInfo.attached (lower : info.prefixes.Lower) :
    ({ id := info.id, height := info.height, prefixes := PrefixMap.empty.withDefaults info.prefixes,
       sortKeys := info.sortKeys } : NodeInfo) = info := by
  rw [PrefixMap.empty_withDefaults lower]

/-- A clause is read, then its keys and declarations are attached. -/
theorem attached_clause {c : Clause} (built : (Node.clause info c).Built n) :
    (((Phrase.clause c).build n).sortBy info.sortKeys).declare info.prefixes = .clause info c := by
  obtain ⟨rfl, height, lower⟩ := built
  have attached := NodeInfo.attached lower
  rw [height] at attached
  exact congrArg (Node.clause · c) attached

/-- So is a triple, behind both operands. -/
theorem attached_triple {left right : Node} {b : Boolean} {p p' : Phrase}
    (built : (Node.triple info left b right).Built n) (hp : p.build n = left)
    (hp' : p'.build (n + left.count) = right) :
    (((Phrase.joined p b p').build n).sortBy info.sortKeys).declare info.prefixes =
      .triple info left b right := by
  obtain ⟨-, -, id, height, lower⟩ := built
  have size : p.size = left.count := by rw [← hp, count_build]
  have size' : p'.size = right.count := by rw [← hp', count_build]
  have high : p.height = left.height := by rw [← hp, height_build]
  have high' : p'.height = right.height := by rw [← hp', height_build]
  have joined : (Phrase.joined p b p').build n =
      .triple { id := info.id, height := info.height } left b right := by
    rw [Phrase.joined, Phrase.build, Phrase.build, size, size', high, high', hp, hp', id, height]
    exact Node.declare_empty _
  rw [joined]
  exact congrArg (Node.triple · left b right) (NodeInfo.attached lower)

/-- By induction on the tree: reading what is printed between the parentheses gives the tree. -/
theorem build_phraseBelow (built : t.Built n) : t.phraseBelow.build n = t := by
  induction t generalizing n with
  | clause info c =>
    rw [Node.phraseBelow, NodeInfo.build_phraseBelow built.2.2 rfl, attached_clause built]
  | triple info left b right ih ih' =>
    obtain ⟨hl, hr, -, -, lower⟩ := id built
    rw [Node.phraseBelow, NodeInfo.build_phraseBelow lower rfl, attached_triple built (ih hl) (ih' hr)]

/-- The phrase of a tree builds the tree. -/
theorem build_phrase (built : t.Built n) : t.phrase.build n = t := by
  rw [Node.phrase_eq]
  split
  · exact build_phraseBelow built
  · rw [Phrase.build, build_phraseBelow built]
    exact Node.declare_empty t

/-! ### The limits that the phrase keeps -/

theorem Node.Built.height_pos (built : t.Built n) : 0 < t.height := by
  cases t with
  | clause info c =>
    rw [Node.height, Node.info, built.2.1]
    exact Nat.one_pos
  | triple info left b right =>
    rw [Node.height, Node.info, built.2.2.2.1]
    omega

/-- What stands between declarations and sort keys may use up a scope less than the whole. -/
theorem NodeInfo.fits_phraseBelow (lower : info.prefixes.Lower) (some_depth : 0 < depth)
    (apart : rules.rejectDuplicatePrefix = true → info.prefixes.names.Disjoint (claimed groups))
    (inner : ∀ depth' groups', depth ≤ depth' + 1 →
      claimed groups' = info.prefixes.names ++ claimed groups → body.Fits rules depth' groups') :
    (info.phraseBelow body).Fits rules depth groups := by
  rw [phraseBelow]
  split
  next =>
    obtain ⟨depth, rfl⟩ : ∃ d, depth = d + 1 := ⟨depth - 1, by omega⟩
    have names : (PrefixMap.ofList info.prefixes.entries).names = info.prefixes.names := by
      rw [PrefixMap.ofList_entries lower]
    refine ⟨fun strict name hname outer houter hname' => ?_, ?_⟩
    · rw [names] at hname
      exact apart strict hname (List.mem_flatMap.2 ⟨outer, houter, hname'⟩)
    · have fits := inner depth (info.prefixes.entries :: groups) (Nat.le_refl _)
        (by rw [claimed, List.flatMap_cons, names, claimed])
      split <;> exact fits
  next unscoped =>
    obtain ⟨prefixes, -⟩ := isScoped_eq_false (Bool.eq_false_iff.2 unscoped)
    exact inner depth groups (Nat.le_succ _) (by rw [prefixes]; rfl)

/-- A tree of `h` levels is written with no more than `2 * h - 1` scopes one inside the other. -/
theorem fits_phraseBelow (built : t.Built n) (low : t.height ≤ rules.maxDepth)
    (deep : 2 * t.height ≤ depth + 1)
    (apart : rules.rejectDuplicatePrefix = true → t.Apart (claimed groups)) :
    t.phraseBelow.Fits rules depth groups := by
  have pos := built.height_pos
  induction t generalizing n depth groups with
  | clause info c =>
    exact NodeInfo.fits_phraseBelow built.2.2 (by omega) apart fun _ _ _ _ => trivial
  | triple info left b right ih ih' =>
    obtain ⟨hl, hr, -, height, lower⟩ := built
    have pos_left := hl.height_pos
    have pos_right := hr.height_pos
    have high : left.phraseBelow.height = left.height := by
      rw [← height_build _ n, build_phraseBelow hl]
    have high' : right.phraseBelow.height = right.height := by
      rw [← height_build _ (n + left.count), build_phraseBelow hr]
    rw [Node.height, Node.info, height] at low deep
    refine NodeInfo.fits_phraseBelow lower (by omega) (fun strict => (apart strict).1)
      fun depth' groups' deeper same => ?_
    obtain ⟨depth', rfl⟩ : ∃ d, depth' = d + 1 := ⟨depth' - 1, by omega⟩
    have below : claimed ([] :: groups') = info.prefixes.names ++ claimed groups := same
    refine Phrase.Fits.undeclared ⟨ih hl (by omega) (by omega) (fun strict => ?_) pos_left,
      ih' hr (by omega) (by omega) (fun strict => ?_) pos_right, by rwa [high, high']⟩
    · rw [below]
      exact (apart strict).2.1
    · rw [below]
      exact (apart strict).2.2

/-- What is printed opens at most two scopes for each level of the tree. -/
theorem fits_phrase (built : t.Built n) (low : t.height ≤ rules.maxDepth)
    (deep : 2 * t.height ≤ depth)
    (apart : rules.rejectDuplicatePrefix = true → t.Apart (claimed groups)) :
    t.phrase.Fits rules depth groups := by
  have pos := built.height_pos
  rw [Node.phrase_eq]
  split
  · exact fits_phraseBelow built low (by omega) apart
  · obtain ⟨depth, rfl⟩ : ∃ d, depth = d + 1 := ⟨depth - 1, by omega⟩
    exact Phrase.Fits.undeclared (fits_phraseBelow built low (by omega) apart)

end ContextualQuery
