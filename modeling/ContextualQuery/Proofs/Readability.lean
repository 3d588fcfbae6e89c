import ContextualQuery.Proofs.Layout
import ContextualQuery.Proofs.Search.Terms

/-! Search strings can be read in one way only.

    A search string nests parentheses as the tree nests triples, so it can be taken apart again from
    the left: what it starts with tells a clause from a triple and `NOT` from the rest, and either
    operand ends where what follows it begins (`SearchTree.eq_of_append_eq`). Hence two trees with the
    same search string search for the same, whatever queries and names of fields they come from
    (`compile_unique`). -/

namespace ContextualQuery

open Reading

/-! ### Search trees -/

/-- What a tree searches for: the search strings of its clauses, and how they are joined. -/
inductive SearchTree where
  | clause (text : String)
  | join (connective : Connective) (left right : SearchTree)
  deriving DecidableEq

namespace SearchTree

/-- What stands in front of two joined search strings. -/
def opening : Connective → String
  | .not => "NOT("
  | _ => "("

/-- What stands between two joined search strings. -/
def joint : Connective → String
  | .or => " OR "
  | _ => " AND "

/-- The search string that a tree is written as. -/
def text : SearchTree → String
  | .clause s => s
  | .join c left right => opening c ++ left.text ++ joint c ++ right.text ++ ")"

/-- Whether the clauses of a tree are fragments, and no distance is asked for between them. -/
def Sound : SearchTree → Prop
  | .clause s => Fragment s.toList
  | .join c left right => c ≠ .prox ∧ left.Sound ∧ right.Sound

variable {x y : SearchTree} {rest rest' : List Char}

theorem toList_text_join (c : Connective) (left right : SearchTree) :
    (join c left right).text.toList = (opening c).toList ++ (left.text.toList ++
      ((joint c).toList ++ (right.text.toList ++ [')']))) := by
  simp [text]

/-- The parentheses of a tree are closed where it ends. -/
theorem run_text (h : x.Sound) (n : Nat) : Scan.run (.outside n) x.text.toList = .outside n := by
  induction x generalizing n with
  | clause s => exact Fragment.run_eq h
  | join c left right ih ih' =>
    obtain ⟨-, hl, hr⟩ := h
    have opens : Scan.run (.outside n) (opening c).toList = .outside (n + 1) := by
      cases c <;> rfl
    have joins : Scan.run (.outside (n + 1)) (joint c).toList = .outside (n + 1) := by
      cases c <;> rfl
    rw [toList_text_join, Scan.run_append, opens, Scan.run_append, ih hl, Scan.run_append, joins,
      Scan.run_append, ih' hr]
    rfl

theorem opening_ends (c : Connective) :
    ∃ u, (opening c).toList = u ++ ['('] ∧ ∀ x ∈ u, isPlain x = true := by
  cases c
  case not => exact ⟨['N', 'O', 'T'], rfl, List.all_eq_true.1 (by decide +kernel)⟩
  all_goals exact ⟨[], rfl, by simp⟩

theorem opening_cancel {c c' : Connective}
    (same : (opening c).toList ++ rest = (opening c').toList ++ rest') :
    (c = .not ↔ c' = .not) ∧ rest = rest' := by
  cases c <;> cases c' <;> simp_all [opening]

theorem joint_cancel {c c' : Connective}
    (same : (joint c).toList ++ rest = (joint c').toList ++ rest') :
    (c = .or ↔ c' = .or) ∧ rest = rest' := by
  cases c <;> cases c' <;> simp_all [joint]

theorem bounds_joint (c : Connective) (rest : List Char) : Bounds ((joint c).toList ++ rest) := by
  intro d hd
  cases c <;> exact .inl (Option.some.inj hd).symm

theorem bounds_close (rest : List Char) : Bounds (')' :: rest) :=
  fun _ hd => .inr (Option.some.inj hd).symm

/-- No clause is written as a triple. -/
theorem clause_ne_join {s : String} (h : Fragment s.toList) (bounds : Bounds rest) (c : Connective)
    (left right : SearchTree) : s.toList ++ rest ≠ (join c left right).text.toList ++ rest' := by
  obtain ⟨u, opens, plain⟩ := opening_ends c
  rw [toList_text_join, opens, List.append_assoc, List.append_assoc]
  exact h.ne_append_openParen bounds plain

/-- A tree is written as no other one, and a text tells where it ends. -/
theorem eq_of_append_eq (hx : x.Sound) (hy : y.Sound) (bounds : Bounds rest)
    (bounds' : Bounds rest') (same : x.text.toList ++ rest = y.text.toList ++ rest') :
    x = y ∧ rest = rest' := by
  induction x generalizing y rest rest' with
  | clause s =>
    cases y with
    | clause s' =>
      obtain ⟨chars, rfl⟩ := Fragment.eq_of_append_eq hx hy bounds bounds' same
      rw [String.toList_injective chars]
      exact ⟨rfl, rfl⟩
    | join c left right => exact absurd same (clause_ne_join hx bounds c left right)
  | join c left right ih ih' =>
    cases y with
    | clause s => exact absurd same.symm (clause_ne_join hy bounds' c left right)
    | join c' left' right' =>
      obtain ⟨some_order, hl, hr⟩ := hx
      obtain ⟨some_order', hl', hr'⟩ := hy
      rw [toList_text_join, toList_text_join] at same
      simp only [List.append_assoc] at same
      obtain ⟨opened, operands⟩ := opening_cancel same
      obtain ⟨rfl, behind⟩ := ih hl hl' (bounds_joint c _) (bounds_joint c' _) operands
      obtain ⟨joined, second⟩ := joint_cancel behind
      obtain ⟨rfl, closed⟩ := ih' hr hr' (bounds_close rest) (bounds_close rest') second
      refine ⟨?_, (List.cons.inj closed).2⟩
      cases c <;> cases c' <;> simp_all

end SearchTree

/-! ### Compiled trees -/

/-- What a tree searches for in a scope. -/
def Node.searchTree (names : FieldNames) (scope : Scope) : Node → Except Refusal SearchTree
  | .clause info c => .clause <$> c.compile names (scope.enter info.prefixes)
  | .triple info left boolean right => do
    let inner := scope.enter info.prefixes
    return .join boolean.connective (← left.searchTree names inner) (← right.searchTree names inner)

/-- What a query searches for. -/
def Query.searchTree (names : FieldNames) (q : Query) : Except Refusal SearchTree :=
  q.root.searchTree names q.scope

/-- Whether the clause at a place, if there is one, asks for equality or its opposite, in a field
    whose name is plain. -/
def Place.Simple (names : FieldNames) (place : Place) : Prop :=
  ∀ c ∈ place.node.clause?,
    (c.relation.kind = .comparison .eq ∨ c.relation.kind = .comparison .ne) ∧
    ∀ field ∈ names.fieldOf place.contextSet c.index.name, field.toList.all isPlain = true

instance (names : FieldNames) (place : Place) : Decidable (place.Simple names) :=
  inferInstanceAs (Decidable (∀ c ∈ place.node.clause?, _))

variable {names : FieldNames}

/-- A search string that is joined by a boolean has two parts. -/
theorem Boolean.compile_eq_ok {b : Boolean} {left right : Except Refusal String} {text : String}
    (h : b.compile left right = .ok text) : b.connective ≠ .prox ∧ ∃ s s', left = .ok s ∧
      right = .ok s' ∧ text = SearchTree.opening b.connective ++ s ++
        SearchTree.joint b.connective ++ s' ++ ")" := by
  obtain ⟨connective, modifiers⟩ := b
  obtain rfl : modifiers = [] := by
    cases modifiers with
    | nil => rfl
    | cons m ms => cases connective <;> cases h
  cases connective with
  | prox => contradiction
  | and | or | not =>
    cases left <;> cases right <;> cases h
    exact ⟨by simp, _, _, rfl, rfl,
      String.toList_injective (by simp [SearchTree.opening, SearchTree.joint])⟩

theorem NodeInfo.unsorted_eq_ok {info : NodeInfo} {result : Except Refusal String} {text : String}
    (h : info.unsorted result = .ok text) : result = .ok text := by
  unfold NodeInfo.unsorted at h
  split at h
  · exact h
  · contradiction

/-- The search string of a tree is what it searches for, written out. -/
theorem Node.exists_searchTree {t : Node} {parent : Option Nat} {scope : Scope} {text : String}
    (simple : ∀ place ∈ t.places parent scope, place.Simple names)
    (spelled : ∀ c ∈ t.clauses, TermSpelling c.term.text.toList)
    (compiled : t.compile names scope = .ok text) :
    ∃ x, t.searchTree names scope = .ok x ∧ x.text = text ∧ x.Sound := by
  induction t generalizing parent scope text with
  | clause info c =>
    have compiled := NodeInfo.unsorted_eq_ok compiled
    obtain ⟨asks, plain⟩ := simple _ List.mem_cons_self c rfl
    refine ⟨.clause text, ?_, rfl, ?_⟩
    · rw [searchTree, compiled]
      rfl
    · exact Clause.fragment_of_compile asks plain (spelled c List.mem_cons_self) compiled
  | triple info left b right ih ih' =>
    obtain ⟨spelled, spelled'⟩ := List.forall_mem_append.1 spelled
    obtain ⟨some_order, s, s', hl, hr, rfl⟩ :=
      Boolean.compile_eq_ok (NodeInfo.unsorted_eq_ok compiled)
    obtain ⟨x, found, rfl, sound⟩ :=
      ih (fun place h => simple place (mem_places_left h)) spelled hl
    obtain ⟨x', found', rfl, sound'⟩ :=
      ih' (fun place h => simple place (mem_places_right h)) spelled' hr
    refine ⟨.join b.connective x x', ?_, rfl, some_order, sound, sound'⟩
    simp only [searchTree, found, found']
    rfl

/-! ### Queries -/

/-- A search string is balanced, and it is that of one tree only, whatever queries and names of fields
    it comes from: it tells the shape of the tree, the booleans in it and the search strings of its
    clauses. -/
theorem compile_unique {rules rules' : Rules} {source source' text text' : String} {q q' : Query}
    {names names' : FieldNames} (usual : rules.wordChars = defaultWordChars)
    (usual' : rules'.wordChars = defaultWordChars) (read : parse rules source = .ok q)
    (read' : parse rules' source' = .ok q') (simple : ∀ place ∈ q.places, place.Simple names)
    (simple' : ∀ place ∈ q'.places, place.Simple names') (compiled : q.compile names = .ok text)
    (compiled' : q'.compile names' = .ok text') :
    Balanced text ∧ Balanced text' ∧
      ∃ x x', q.searchTree names = .ok x ∧ q'.searchTree names' = .ok x' ∧ (text = text' → x = x') := by
  obtain ⟨x, found, rfl, sound⟩ := Node.exists_searchTree simple
    (termSpelling_of_parse usual read) (Query.compile_eq_ok.1 compiled)
  obtain ⟨x', found', rfl, sound'⟩ := Node.exists_searchTree simple'
    (termSpelling_of_parse usual' read') (Query.compile_eq_ok.1 compiled')
  refine ⟨SearchTree.run_text sound 0, SearchTree.run_text sound' 0, x, x', found, found', fun same => ?_⟩
  have ended : Bounds [] := by simp [Bounds]
  exact (SearchTree.eq_of_append_eq sound sound' ended ended (congrArg (·.toList ++ []) same)).1

/-- A parenthesis between quotes does not count, nor do parentheses that a query has to spare. -/
theorem compile_unique_of_quoted_parenthesis : ∃ q q' text,
    parse {} "a and (b <> c or \") d\")" = .ok q ∧
      parse {} "(a) and ((b <> \"c\") or \") d\")" = .ok q' ∧
      q.compile {} = .ok text ∧ q'.compile {} = .ok text ∧
      Balanced text ∧ q.searchTree {} = q'.searchTree {} := by
  have checked : ((parse {} "a and (b <> c or \") d\")").toOption.any fun q =>
      q.places.all (fun place => decide (place.Simple {})) &&
        (q.compile {}).toOption == some "(a AND (b:-\"c\" OR \") d\"))") = true := by
    decide +kernel
  have checked' : ((parse {} "(a) and ((b <> \"c\") or \") d\")").toOption.any fun q =>
      q.places.all (fun place => decide (place.Simple {})) &&
        (q.compile {}).toOption == some "(a AND (b:-\"c\" OR \") d\"))") = true := by
    decide +kernel
  have compiles {q : Query} {text : String} (h : (q.compile {}).toOption = some text) :
      q.compile {} = .ok text := by
    cases found : q.compile {} <;> simp_all [Except.toOption]
  obtain ⟨q, read, known⟩ := exists_eq_ok_of_any checked
  obtain ⟨q', read', known'⟩ := exists_eq_ok_of_any checked'
  simp only [Bool.and_eq_true, List.all_eq_true, decide_eq_true_eq, beq_iff_eq] at known known'
  have text := compiles known.2
  have text' := compiles known'.2
  obtain ⟨balanced, -, x, x', found, found', unique⟩ :=
    compile_unique rfl rfl read read' known.1 known'.1 text text'
  exact ⟨q, q', _, read, read', text, text', balanced, by rw [found, found', unique rfl]⟩

end ContextualQuery
