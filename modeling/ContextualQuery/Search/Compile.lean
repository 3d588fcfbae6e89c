import ContextualQuery.Query
import ContextualQuery.Search.Fields
import ContextualQuery.Search.Refusal
import ContextualQuery.Text.Words

/-! The search string that a query stands for.

        title = spam              title:spam
        eggs                      eggs
        year > 1999               year:>1999
        ind <> 6                  ind:-"6"
        title any "spam hamm"     (title:spam OR title:hamm)
        a not b                   NOT(a AND b)

    Whether a query has one depends on its tree alone: sort keys, proximity, modifiers and relations
    with other names are refused. -/

namespace ContextualQuery

/-! ### Words -/

/-- A text without a double quote at its start. -/
def dropOpenQuote (s : String) : String :=
  match s.toList with
  | '"' :: rest => String.ofList rest
  | _ => s

/-- A text without a double quote at its end. -/
def dropCloseQuote (s : String) : String :=
  if s.toList.getLast? = some '"' then String.ofList s.toList.dropLast else s

/-- Changes the last item of a list. -/
def mapLast (f : String → String) : List String → List String
  | [] => []
  | [w] => [f w]
  | w :: rest => w :: mapLast f rest

/-- The words of a term that has several, its quotes left out; none where it has only one. -/
def Term.words (t : Term) : List String :=
  match Text.words t.text with
  | first :: second :: rest =>
    (dropOpenQuote first :: mapLast dropCloseQuote (second :: rest)).filter (!·.isEmpty)
  | _ => []

/-- One search for each word of a term, joined by a word. -/
def eachWord (qualifier : String) (term : Term) (joint : String) : String :=
  match term.words.map (qualifier ++ ·) with
  | [] => qualifier ++ term.text
  | [single] => single
  | several => "(" ++ (" " ++ joint ++ " ").intercalate several ++ ")"

/-! ### Clauses -/

/-- What stands in front of the terms of a field. -/
def qualifierOf (field : Option String) : String := field.elim "" (· ++ ":")

/-- The search for a term behind its qualifier. -/
def Relation.compile (r : Relation) (qualifier : String) (term : Term) : Except Refusal String :=
  match r.kind with
  | .comparison .eq => .ok (qualifier ++ term.text)
  | .comparison .ne => .ok (qualifier ++ "-" ++ Text.quote term.unquoted)
  | .comparison c => .ok (qualifier ++ c.text ++ term.unquoted)
  | .all => .ok (eachWord qualifier term "AND")
  | .any => .ok (eachWord qualifier term "OR")
  | .named _ => .error (.relation r.text)

/-- The search string of a clause in a scope. -/
def Clause.compile (names : FieldNames) (scope : Scope) (c : Clause) : Except Refusal String :=
  if !c.index.modifiers.isEmpty then .error (.modified c.index.text)
  else if !c.relation.modifiers.isEmpty then .error (.modified c.relation.text)
  else
    let field := names.fieldOf (scope.resolve c.index.name.set) c.index.name
    c.relation.compile (qualifierOf field) c.term

/-! ### Trees -/

/-- Two search strings joined by a boolean. -/
def Boolean.compile (b : Boolean) (left right : Except Refusal String) : Except Refusal String :=
  let joined (joint : String) : Except Refusal String :=
    if !b.modifiers.isEmpty then .error (.modified b.text)
    else do return "(" ++ (← left) ++ " " ++ joint ++ " " ++ (← right) ++ ")"
  match b.connective with
  | .and => joined "AND"
  | .or => joined "OR"
  | .not => ("NOT" ++ ·) <$> joined "AND"
  | .prox => .error (.proximity b.connective.text)

/-- Refuses what is to be sorted. -/
def NodeInfo.unsorted (info : NodeInfo) (result : Except Refusal String) : Except Refusal String :=
  if info.sortKeys.isEmpty then result
  else .error (.sorting (" ".intercalate (info.sortKeys.map Index.text)))

/-- The search string of a tree in a scope. -/
def Node.compile (names : FieldNames) (scope : Scope) : Node → Except Refusal String
  | .clause info c => info.unsorted (c.compile names (scope.enter info.prefixes))
  | .triple info left boolean right =>
    let inner := scope.enter info.prefixes
    info.unsorted (boolean.compile (left.compile names inner) (right.compile names inner))

/-- The search string of a query. -/
def Query.compile (names : FieldNames) (q : Query) : Except Diagnostic String :=
  (q.root.compile names q.scope).mapError (·.diagnostic q.source)

theorem Query.compile_eq_ok {names : FieldNames} {q : Query} {e : String} :
    q.compile names = .ok e ↔ q.root.compile names q.scope = .ok e := by
  rw [compile]
  cases q.root.compile names q.scope with
  | error r => exact iff_of_false (by rintro ⟨⟩) (by rintro ⟨⟩)
  | ok text =>
    change Except.ok text = .ok e ↔ _
    simp only [Except.ok.injEq]

end ContextualQuery
