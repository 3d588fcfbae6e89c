import ContextualQuery.Proofs.Layout
import ContextualQuery.Proofs.Operators
import ContextualQuery.Proofs.WellFormed
import ContextualQuery.Query.JsonView

/-! The nested data of a query tells its tree.

    As data, some things look alike that differ in a tree:

        a = b, and a relation with the name `=` in the same set      "value": "="
        no comparison, and one without a text                        "comparison": ""
        the name `a.b` without a set, and `b` in the set `a`         "type": "a.b"
        no declarations, and no member for them

    No tree that is read has both. A word that looks like a comparison has a backslash in it, names are
    split at their only dot, and comparisons have a text. So what is read is told by its data, down to
    the numbers of the nodes. -/

namespace ContextualQuery

open Lexemes Reading Unicode

variable {α β : Type} {rules rules' : Rules} {punctuation : String} {cs front rest : List Char}
  {b c : Char} {u : List Token} {next : Option Token}

/-! ### Words that look like comparisons -/

/-- A character that is refused stands behind a backslash. -/
theorem Lexemes.Escaped.eq_backslash {admits : Char → Bool}
    (h : Escaped admits (front ++ b :: c :: rest)) (plain : c ≠ '\\') (refused : admits c = false) :
    b = '\\' := by
  have starts {cs : List Char} (h : Escaped admits (c :: cs)) : False := by
    have head := h.admits_head
    simp [plain, refused] at head
  generalize whole : front ++ b :: c :: rest = cs at h
  induction h generalizing front with
  | nil => simp at whole
  | pair later ih =>
    match front, whole with
    | [], whole => exact (List.cons.inj whole).1
    | [_], whole =>
      obtain ⟨-, rfl⟩ := List.cons.inj (List.cons.inj whole).2
      exact (starts later).elim
    | _ :: _ :: front, whole => exact ih (List.cons.inj (List.cons.inj whole).2).2
  | char _ _ later ih =>
    match front, whole with
    | [], whole =>
      obtain ⟨-, rfl⟩ := List.cons.inj whole
      exact (starts later).elim
    | _ :: front, whole => exact ih (List.cons.inj whole).2

/-- In a word in lower case operators only stand behind backslashes. A backslash at its end may hold
    something too. -/
theorem exists_escaped_lowercase [Harmless punctuation] {s : String}
    (lexed : (Token.word s).Lexed punctuation) :
    ∃ more, Escaped (!isOperator ·) ((lowercase s).toList ++ more) := by
  have letters (c : Char) (letter : isAlphanumeric c = true) : (!isOperator c) = true := by
    rw [(opens_of_isAlphanumeric letter).1, Bool.not_false]
  have admitted (c : Char) (word : isWordChar punctuation c = true) : (!isOperator c) = true := by
    rw [isOperator_of_isWordChar word, Bool.not_false]
  have lowered (more : List Char)
      (h : Escaped (isWordChar punctuation) (s.toList ++ more)) :
      Escaped (!isOperator ·) ((lowercase s).toList ++ more) :=
    (h.mono admitted).lowered letters (fun _ => by decide) ((Lowers.lowercase s).append (.refl more))
  obtain ⟨u, rest, taken⟩ := lexed
  generalize word : Token.word s = t at taken
  cases taken with
  | word _ escaped _ =>
    obtain rfl := Token.word.inj word
    exact ⟨[], lowered [] (by simpa using escaped)⟩
  | openWord _ escaped =>
    obtain rfl := Token.word.inj word
    exact ⟨['\\'], lowered ['\\'] (by simpa using escaped.append (.pair .nil))⟩
  | _ => cases word

theorem Comparator.head_text (o : Comparator) :
    ∃ c cs, o.text.toList = c :: cs ∧ c ≠ '\\' ∧ isOperator c = true := by
  cases o <;> exact ⟨_, _, rfl, by decide, by decide⟩

theorem Relation.eq_of_kindOf {set word base : String} (named : kindOf set word = .named base) :
    base = word := by
  unfold kindOf at named
  split at named
  · cases named
  · split at named <;> cases named
    rfl

/-- No relation that was read has a comparison for its name. -/
theorem RelationSpelling.name_ne_text [Harmless punctuation] {r : Relation} {name : String}
    (related : RelationSpelling u next r) (lexed : ∀ t ∈ u, t.Lexed punctuation)
    (named : r.kind = .named name) (o : Comparator) : name ≠ o.text := by
  rintro rfl
  cases related with
  | comparison => cases named
  | word split refined =>
    obtain ⟨more, escaped⟩ := exists_escaped_lowercase (List.forall_mem_cons.1 lexed).1
    obtain ⟨c, cs, text, plain, operator⟩ := o.head_text
    have refused : (!isOperator c) = false := by rw [operator, Bool.not_true]
    rcases splitName_eq_ok.1 split with ⟨free, -⟩ | ⟨set, base, chars, -, free, -, -⟩
    · rw [ofWord_of_not_mem free] at named
      rw [← Relation.eq_of_kindOf named, text] at escaped
      have head := escaped.admits_head
      simp [plain, operator] at head
    · rw [ofWord_of_split chars free] at named
      have same : base = c :: cs := by
        rw [← text, Relation.eq_of_kindOf named, String.toList_ofList]
      rw [chars, same, List.append_assoc] at escaped
      exact absurd (escaped.eq_backslash plain refused) (by decide)

/-! ### Members -/

theorem eq_of_map_eq {f : α → β} {P P' : α → Prop} (f_inj : ∀ x y, P x → P' y → f x = f y → x = y)
    {xs ys : List α} (hxs : ∀ x ∈ xs, P x) (hys : ∀ y ∈ ys, P' y) (same : xs.map f = ys.map f) :
    xs = ys := by
  induction xs generalizing ys with
  | nil => exact (List.map_eq_nil_iff.1 same.symm).symm
  | cons x xs ih =>
    cases ys with
    | nil => cases same
    | cons y ys =>
      obtain ⟨first, later⟩ := List.cons.inj same
      obtain ⟨hx, hxs⟩ := List.forall_mem_cons.1 hxs
      obtain ⟨hy, hys⟩ := List.forall_mem_cons.1 hys
      rw [f_inj x y hx hy first, ih hxs hys later]

/-- A member that may be left out does not hide what stands behind it. -/
theorem optionalMember_append_inj {p p' : Bool} {name : String} {v v' : Json}
    {m m' : String × Json} {ms ms' : List (String × Json)} (other : m.1 ≠ name)
    (other' : m'.1 ≠ name)
    (same : optionalMember p name v ++ m :: ms = optionalMember p' name v' ++ m' :: ms') :
    p = p' ∧ (p = true → v = v') ∧ m = m' ∧ ms = ms' := by
  unfold optionalMember at same
  cases p <;> cases p'
  · exact ⟨rfl, nofun, List.cons.inj same⟩
  · exact absurd (congrArg Prod.fst (List.cons.inj same).1) other
  · exact absurd (congrArg Prod.fst (List.cons.inj same).1).symm other'
  · obtain ⟨first, later⟩ := List.cons.inj same
    exact ⟨rfl, fun _ => (Prod.mk.inj first).2, List.cons.inj later⟩

theorem eq_of_present {xs ys : List α} (present : (!xs.isEmpty) = !ys.isEmpty)
    (same : (!xs.isEmpty) = true → xs = ys) : xs = ys := by
  cases xs with
  | nil => exact (List.isEmpty_iff.1 (by simpa using present.symm)).symm
  | cons x xs => exact same rfl

theorem Comparator.text_inj {o o' : Comparator} : o.text = o'.text ↔ o = o' := by
  cases o <;> cases o' <;> decide

theorem Connective.text_inj {o o' : Connective} : o.text = o'.text ↔ o = o' := by
  cases o <;> cases o' <;> decide

/-! ### Parts -/

/-- A name is split at its only dot. -/
theorem QualifiedName.WellFormed.eq_of_full_eq {n n' : QualifiedName} (h : n.WellFormed)
    (h' : n'.WellFormed) (same : n.full = n'.full) : n = n' := by
  have unset {n : QualifiedName} (none : n.set = "") : n.full = n.base := by
    simp [full, hasSet, none]
  have dotted {n : QualifiedName} (written : n.set ≠ "") : '.' ∈ n.full.toList := by
    simp [toList_full_of_set written]
  have halves {n n' : QualifiedName} (set : n.set = n'.set) (base : n.base = n'.base) : n = n' := by
    cases n
    cases n'
    exact congrArg₂ mk set base
  rcases h with ⟨none, free⟩ | ⟨written, -, -⟩ <;>
    rcases h' with ⟨none', free'⟩ | ⟨written', ⟨set_free, -⟩, ⟨base_free, -⟩⟩
  · rw [unset none, unset none'] at same
    exact halves (none.trans none'.symm) same
  · exact absurd (dotted written') (by rwa [← same, unset none])
  · exact absurd (dotted written) (by rwa [same, unset none'])
  · have chars := congrArg String.toList same.symm
    rw [toList_full_of_set written, toList_full_of_set written',
      List.append_cons_inj_of_notMem set_free base_free] at chars
    exact (halves (String.toList_injective chars.1) (String.toList_injective chars.2.2)).symm

theorem Modifier.WellFormed.eq_of_json_eq {m m' : Modifier} (h : m.WellFormed) (h' : m'.WellFormed)
    (same : m.json = m'.json) : m = m' := by
  obtain ⟨name, refinements, comparison, value⟩ := m
  obtain ⟨name', refinements', comparison', value'⟩ := m'
  obtain ⟨named, rfl, -⟩ := h
  obtain ⟨named', rfl, -⟩ := h'
  simp only [json, Json.object.injEq, List.cons.injEq, Prod.mk.injEq, Json.string.injEq, true_and,
    and_true] at same
  obtain ⟨compared, full, rfl⟩ := same
  obtain rfl : name = name' := named.eq_of_full_eq named' full
  obtain rfl : comparison = comparison' := by
    have present (o : Comparator) : o.text ≠ "" := by cases o <;> decide
    match comparison, comparison', compared with
    | none, none, _ => rfl
    | some o, some o', compared => rw [Comparator.text_inj.1 compared]
    | none, some o, compared => exact absurd compared.symm (present o)
    | some o, none, compared => exact absurd compared (present o)
  rfl

theorem eq_of_modifiersJson_eq {ms ms' : List Modifier} (h : ∀ m ∈ ms, m.WellFormed)
    (h' : ∀ m ∈ ms', m.WellFormed) (same : modifiersJson ms = modifiersJson ms') : ms = ms' :=
  eq_of_map_eq (fun _ _ => Modifier.WellFormed.eq_of_json_eq) h h' (Json.array.inj same)

theorem Index.WellFormed.eq_of_json_eq {i i' : Index} (h : i.WellFormed) (h' : i'.WellFormed)
    (same : i.json = i'.json) : i = i' := by
  obtain ⟨⟨set, base⟩, ms⟩ := i
  obtain ⟨⟨set', base'⟩, ms'⟩ := i'
  have apart : "name" ≠ "modifiers" := by decide
  obtain ⟨present, modifiers, base_eq, rest⟩ :=
    optionalMember_append_inj apart apart (Json.object.inj same)
  simp only [List.cons.injEq, Prod.mk.injEq, Json.string.injEq, true_and, and_true] at base_eq rest
  obtain rfl : ms = ms' :=
    eq_of_present present fun some => eq_of_modifiersJson_eq h.2 h'.2 (modifiers some)
  rw [base_eq, rest]

theorem Boolean.WellFormed.eq_of_json_eq {b b' : Boolean} (h : b.WellFormed) (h' : b'.WellFormed)
    (same : b.json = b'.json) : b = b' := by
  obtain ⟨connective, ms⟩ := b
  obtain ⟨connective', ms'⟩ := b'
  simp only [json, Json.object.injEq, List.cons.injEq, Prod.mk.injEq, Json.string.injEq, true_and,
    and_true, Connective.text_inj] at same
  obtain ⟨modifiers, rfl⟩ := same
  exact congrArg (Boolean.mk connective) (eq_of_modifiersJson_eq h h' modifiers)

/-- Whether the name of a relation is no comparison. -/
def Relation.Spoken (r : Relation) : Prop :=
  ∀ name, r.kind = .named name → ∀ o : Comparator, name ≠ o.text

/-- The kind of relation that is written so in a set. -/
def Relation.kindOfValue (set value : String) : RelationKind :=
  match [.eq, .gt, .ge, .lt, .le, .ne].find? fun o : Comparator => o.text == value with
  | some o => .comparison o
  | none => kindOf set value

/-- In a set a relation is told by how it is written. -/
theorem Relation.WellFormed.kind_eq {r : Relation} (h : r.WellFormed) (spoken : r.Spoken) :
    r.kind = kindOfValue r.set r.value := by
  obtain ⟨set, kind, ms⟩ := r
  obtain ⟨suits, -⟩ := h
  cases kind with
  | comparison o => cases o <;> rfl
  | all | any =>
    obtain rfl : set = ContextSet.cqlName := suits
    rfl
  | named name =>
    obtain ⟨-, -, -, other⟩ := suits
    have none : ([.eq, .gt, .ge, .lt, .le, .ne].find? fun o : Comparator => o.text == name) = none :=
      List.find?_eq_none.2 fun o _ same => spoken name rfl o (beq_iff_eq.1 same).symm
    have not_all : ¬(set = ContextSet.cqlName ∧ name = "all") := fun h => (other h.1).1 h.2
    have not_any : ¬(set = ContextSet.cqlName ∧ name = "any") := fun h => (other h.1).2 h.2
    change RelationKind.named name = kindOfValue set name
    rw [kindOfValue, none, kindOf, if_neg not_all, if_neg not_any]

theorem Relation.WellFormed.eq_of_json_eq {r r' : Relation} (h : r.WellFormed) (h' : r'.WellFormed)
    (spoken : r.Spoken) (spoken' : r'.Spoken) (same : r.json = r'.json) : r = r' := by
  simp only [json, Json.object.injEq, List.cons.injEq, Prod.mk.injEq, Json.string.injEq, true_and,
    and_true] at same
  obtain ⟨modifiers, set, value⟩ := same
  have kind : r.kind = r'.kind := by rw [h.kind_eq spoken, h'.kind_eq spoken', set, value]
  have ms := eq_of_modifiersJson_eq h.2 h'.2 modifiers
  cases r
  cases r'
  cases set
  cases kind
  cases ms
  rfl

/-! ### Trees -/

/-- Whether a tree, with its nodes numbered from `n` on, is told by its data. -/
structure Node.Telling (rules : Rules) (t : Node) (n : Nat) : Prop where
  wellFormed : t.WellFormed rules
  spoken : ∀ c ∈ t.clauses, c.relation.Spoken
  built : t.Built n

theorem eq_of_ofPairs_eq {ps ps' : List (String × String)} (same : Json.ofPairs ps = Json.ofPairs ps') :
    ps = ps' := by
  refine List.map_injective_iff.2 (fun p p' same => ?_) (Json.object.inj same)
  obtain ⟨name, value⟩ := Prod.mk.inj same
  exact Prod.ext name (Json.string.inj value)

/-- What is attached to a node is told, whatever members it stands between. -/
theorem NodeInfo.WellFormed.eq_of_members_eq {info info' : NodeInfo} (h : info.WellFormed)
    (h' : info'.WellFormed) {m m' k k' : String × Json} {ms ms' : List (String × Json)}
    (apart : m.1 ≠ "prefixes") (apart' : m'.1 ≠ "prefixes") (above : k.1 ≠ "sortKeys")
    (above' : k'.1 ≠ "sortKeys")
    (same : info.prefixesMember ++ m :: (info.sortKeysMember ++ k :: ms) =
      info'.prefixesMember ++ m' :: (info'.sortKeysMember ++ k' :: ms')) :
    info.prefixes = info'.prefixes ∧ info.sortKeys = info'.sortKeys ∧ m = m' ∧ k = k' ∧ ms = ms' := by
  obtain ⟨declares, declared, rfl, later⟩ := optionalMember_append_inj apart apart' same
  obtain ⟨sorts, sorted, rfl, rfl⟩ := optionalMember_append_inj above above' later
  refine ⟨PrefixMap.ext_entries (eq_of_present declares fun some => eq_of_ofPairs_eq (declared some)),
    eq_of_present sorts fun some => ?_, rfl, rfl, rfl⟩
  exact eq_of_map_eq (fun _ _ => Index.WellFormed.eq_of_json_eq) h.2 h'.2
    (Json.array.inj (sorted some))

theorem Clause.WellFormed.eq_of_json_eq {c c' : Clause} (h : c.WellFormed rules)
    (h' : c'.WellFormed rules') (spoken : c.relation.Spoken) (spoken' : c'.relation.Spoken)
    (index : c.index.json = c'.index.json) (relation : c.relation.json = c'.relation.json)
    (term : c.term.text = c'.term.text) : c = c' := by
  obtain ⟨hindex, -, hrelation, -⟩ := h
  obtain ⟨hindex', -, hrelation', -⟩ := h'
  have index := hindex.eq_of_json_eq hindex' index
  have relation := hrelation.eq_of_json_eq hrelation' spoken spoken' relation
  obtain ⟨i, r, ⟨text⟩⟩ := c
  obtain ⟨i', r', ⟨text'⟩⟩ := c'
  cases index
  cases relation
  cases term
  rfl

theorem NodeInfo.eq_of_eq {info info' : NodeInfo} (id : info.id = info'.id)
    (height : info.height = info'.height) (prefixes : info.prefixes = info'.prefixes)
    (keys : info.sortKeys = info'.sortKeys) : info = info' := by
  cases info
  cases info'
  cases id
  cases height
  cases prefixes
  cases keys
  rfl

namespace Node.Telling

variable {info : NodeInfo} {l r : Node} {b : Boolean} {n : Nat}

theorem left (h : (Node.triple info l b r).Telling rules n) : l.Telling rules n where
  wellFormed := h.wellFormed.2.1
  spoken c hc := h.spoken c (List.mem_append_left _ hc)
  built := h.built.1

theorem right (h : (Node.triple info l b r).Telling rules n) :
    r.Telling rules (n + l.count) where
  wellFormed := h.wellFormed.2.2.2
  spoken c hc := h.spoken c (List.mem_append_right _ hc)
  built := h.built.2.1

/-- Trees that are numbered alike are the same if their data are. -/
theorem eq_of_json_eq {t t' : Node} (h : t.Telling rules n)
    (h' : t'.Telling rules' n) (same : t.json = t'.json) : t = t' := by
  induction t generalizing t' n with
  | clause info c =>
    cases t' with
    | clause info' c' =>
      simp only [json, List.append_assoc, List.cons_append, List.nil_append, Json.object.injEq,
        List.cons.injEq, Prod.mk.injEq, true_and] at same
      obtain ⟨index, same⟩ := same
      obtain ⟨prefixes, keys, relation, term, -⟩ := h.wellFormed.1.eq_of_members_eq
        h'.wellFormed.1 (by simp) (by simp) (by simp) (by simp) same
      have clause : c = c' := h.wellFormed.2.eq_of_json_eq h'.wellFormed.2
        (h.spoken c (by simp [clauses])) (h'.spoken c' (by simp [clauses])) index
        (Prod.mk.inj relation).2 (Json.string.inj (Prod.mk.inj term).2)
      -- Number and levels are not shown, but both trees are numbered from `n` on.
      obtain ⟨id, height, -⟩ := h.built
      obtain ⟨id', height', -⟩ := h'.built
      rw [clause, NodeInfo.eq_of_eq (id.trans id'.symm) (height.trans height'.symm) prefixes keys]
    | triple info' left' b' right' => simp [json] at same
  | triple info left b right ih ih' =>
    cases t' with
    | clause info' c' => simp [json] at same
    | triple info' left' b' right' =>
      simp only [json, List.append_assoc, List.cons_append, List.nil_append, Json.object.injEq,
        List.cons.injEq, Prod.mk.injEq, true_and] at same
      obtain ⟨boolean, left_same, same⟩ := same
      obtain ⟨prefixes, keys, right_same, -, -⟩ := h.wellFormed.1.eq_of_members_eq
        h'.wellFormed.1 (by simp) (by simp) (by simp) (by simp) same
      obtain rfl : left = left' := ih h.left h'.left left_same
      obtain rfl : right = right' := ih' h.right h'.right (Prod.mk.inj right_same).2
      obtain rfl : b = b' := h.wellFormed.2.2.1.eq_of_json_eq h'.wellFormed.2.2.1 boolean
      obtain ⟨-, -, id, height, -⟩ := h.built
      obtain ⟨-, -, id', height', -⟩ := h'.built
      rw [NodeInfo.eq_of_eq (id.trans id'.symm) (height.trans height'.symm) prefixes keys]

end Node.Telling

/-! ### Queries -/

/-- Every tree that is read is told by its data, whatever punctuation words hold, as long as they hold
    no operators. -/
theorem telling_of_parse [Harmless rules.wordChars] {source : String} {q : Query}
    (read : parse rules source = .ok q) : q.root.Telling rules 0 := by
  have wellFormed := root_wellFormed read
  obtain ⟨ts, p, lexed, spelled, -, rfl⟩ := parse_eq_ok.1 read
  have sourced := (spelled.sourced (ofText_eq.1 lexed).taken (by simp)).build 0
  refine ⟨wellFormed, fun c hc name named => ?_, built_build p 0⟩
  obtain ⟨u, next, tokens, related⟩ := Clause.sourced_relation ⟨['='], [], .eq⟩ (sourced.clause c hc)
  exact related.name_ne_text tokens named

/-- Two queries are read as the same tree, down to its numbers, if their data are the same. -/
theorem root_eq_of_json_eq {source source' : String} {q q' : Query}
    (usual : rules.wordChars = defaultWordChars) (usual' : rules'.wordChars = defaultWordChars)
    (read : parse rules source = .ok q) (read' : parse rules' source' = .ok q')
    (same : q.json = q'.json) : q.root = q'.root := by
  have : Harmless rules.wordChars := by rw [usual]; infer_instance
  have : Harmless rules'.wordChars := by rw [usual']; infer_instance
  exact (telling_of_parse read).eq_of_json_eq (telling_of_parse read') same

/-- One query with little white space and with more of it. -/
theorem root_eq_of_json_eq_spaced : ∃ q q',
    parse {} ">dc=\"u\" dc.title any/x=y \"a b\" and/z c sortby t/up" = .ok q ∧
      parse {} " > dc = \"u\" dc.title any / x = y \"a b\" and / z c sortby t / up" = .ok q' ∧
      q.source ≠ q'.source ∧ q.json = q'.json ∧ q.root = q'.root := by
  have lexed : Lexemes.ofText defaultWordChars
        " > dc = \"u\" dc.title any / x = y \"a b\" and / z c sortby t / up" =
      Lexemes.ofText defaultWordChars ">dc=\"u\" dc.title any/x=y \"a b\" and/z c sortby t/up" := by
    decide +kernel
  obtain ⟨q, read⟩ := exists_eq_ok
    (x := parse {} ">dc=\"u\" dc.title any/x=y \"a b\" and/z c sortby t/up") (by decide +kernel)
  obtain ⟨ts, p, tokens, spelled, fits, rfl⟩ := parse_eq_ok.1 read
  have read' := parse_eq_ok.2 ⟨ts, p, lexed.trans tokens, spelled, fits, rfl⟩
  exact ⟨_, _, read, read', by simp, rfl, root_eq_of_json_eq rfl rfl read read' rfl⟩

end ContextualQuery
