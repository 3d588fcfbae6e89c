import ContextualQuery.Unicode.Alphanumeric

/-! The characters of bare words: letters and digits of any script, and a choice of punctuation. -/

namespace ContextualQuery

/-- The punctuation that bare words hold unless another choice is made. -/
def defaultWordChars : String := "!@#$%^&*-+\x7b\x7d[];,.?|~`:\\'_"

/-- Whether a character may stand in a bare word, given the punctuation that is admitted. -/
def isWordChar (punctuation : String) (c : Char) : Bool :=
  Unicode.isAlphanumeric c || punctuation.toList.contains c

/-- Whether a text is one bare word under the usual punctuation. -/
def isBareWord (s : String) : Bool :=
  !s.toList.isEmpty && s.toList.all (isWordChar defaultWordChars)

end ContextualQuery
