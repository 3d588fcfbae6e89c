import ContextualQuery.Proofs.Json.Bounds
import ContextualQuery.Proofs.Json.Documents
import ContextualQuery.Proofs.Json.Soundness

/-! What is relied on in reading and writing JSON text.

    What is said about data that are loaded and written holds for every reader and writer of JSON that
    lose nothing (`Codec`): a text is read as what it is the text of, and strings and numbers of 64
    bits are read as they were written. The reader and the writer of this library are such
    (`codec`). -/

namespace ContextualQuery.Json

/-- A reader and a writer of JSON text. -/
structure Codec where
  /-- What a text is read as, and the defect of what follows. -/
  read : String → Document × Option Defect
  /-- The texts that a value is written as. -/
  Writes : Json → String → Prop
  /-- The texts of a document. -/
  IsTextOf : Document → String → Prop
  /-- A text is read as what it is the text of. -/
  read_eq {d text} (written : IsTextOf d text) : read text = (d, none)
  /-- It can be passed over. -/
  defect?_eq {d text} (written : IsTextOf d text) : d.defect? = none
  /-- Nothing else is read up to its end. -/
  isTextOf_read {d text} (whole : read text = (d, none)) (sound : ¬d.Breaks) : IsTextOf d text
  /-- Integers that are read have 64 bits. -/
  fits_read (text) : (read text).1.Fits
  /-- What is written of a value is a text of it, strings and integers of 64 bits included. -/
  isTextOf_write {j text} (fits : j.Fits) (written : Writes j text) : IsTextOf j.document text

/-- Reading and writing in this library, whatever the layout. -/
def codec : Codec where
  read := Document.ofText
  Writes j text := ∃ layout : Layout, layout.Sound ∧ j.renderAt layout 0 = text
  IsTextOf := Document.IsTextOf
  read_eq := ofText_of_isTextOf
  defect?_eq written := let ⟨_, spells, _⟩ := written; defect?_of_spells spells
  isTextOf_read whole sound := (isTextOf_of_ofText whole).resolve_right sound
  fits_read := fits_ofText
  isTextOf_write := by
    rintro j _ fits ⟨layout, sound, rfl⟩
    exact isTextOf_renderAt sound fits 0

/-- The text without any white space is one of those that this codec writes. -/
theorem codec_writes_compact (j : Json) : codec.Writes j j.compact := ⟨_, Layout.sound_compact, rfl⟩

/-- So is the indented text. -/
theorem codec_writes_pretty (j : Json) : codec.Writes j j.pretty := ⟨_, Layout.sound_pretty, rfl⟩

end ContextualQuery.Json
