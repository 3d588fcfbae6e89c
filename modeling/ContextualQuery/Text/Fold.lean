/-! Texts without regard to the case of ASCII letters. All other characters stay as they are. -/

namespace ContextualQuery.Text

/-- A text with its ASCII capitals in lower case. -/
def fold (s : String) : String := String.ofList (s.toList.map Char.toLower)

/-- Whether two texts differ at most in the case of ASCII letters. -/
def sameFold (s t : String) : Bool := fold s == fold t

end ContextualQuery.Text
