import ContextualQuery.Unicode.Blank

/-! The words of a text: its longest stretches without white space. -/

namespace ContextualQuery.Text

/-- The nonempty stretches between white space, in order. -/
def words (s : String) : List String :=
  ((s.toList.splitOnP Unicode.isBlank).filter (!·.isEmpty)).map String.ofList

end ContextualQuery.Text
