import ContextualQuery.Json.Printer
import ContextualQuery.Proofs.Json.Grammar

/-! Values are read back from their texts.

    What is written of a value is a text of the value as it is read (`isTextOf_renderAt`), however it is
    laid out, as long as its numbers have 64 bits. So the value is read back. -/

namespace ContextualQuery.Json

open Document

/-! ### Values as documents -/

mutual

/-- A value as it is read. -/
def document : Json → Document
  | .null => .scalar (.ok .null) none
  | .bool b => .scalar (.ok (.bool b)) none
  | .number n => .scalar (.ok (.number (.integer false n))) none
  | .string s => .scalar (.ok (.string s)) none
  | .array items => .array (documents items) none
  | .object members => .object (memberDocuments members) none

/-- Items as they are read. -/
def documents : List Json → List Document
  | [] => []
  | item :: rest => item.document :: documents rest

/-- Members as they are read. -/
def memberDocuments : List (String × Json) → List (Except Defect String × Document)
  | [] => []
  | (name, value) :: rest => (.ok name, value.document) :: memberDocuments rest

end

mutual

/-- Whether all numbers of a value have 64 bits. -/
def Fits : Json → Prop
  | .number n => n ≤ maxWord
  | .array items => FitItems items
  | .object members => FitMembers members
  | .null | .bool _ | .string _ => True

def FitItems : List Json → Prop
  | [] => True
  | item :: rest => item.Fits ∧ FitItems rest

def FitMembers : List (String × Json) → Prop
  | [] => True
  | (_, value) :: rest => value.Fits ∧ FitMembers rest

end

/-! ### Layouts -/

/-- What layouts put between the parts of a text: white space, and a colon behind names. -/
structure Layout.Sound (layout : Layout) : Prop where
  newline : ∀ depth, ∀ c ∈ (layout.newline depth).toList, isGap c = true
  colon : ∃ b, (∀ c ∈ b, isGap c = true) ∧ layout.colon.toList = ':' :: b

theorem Layout.sound_compact : Layout.compact.Sound where
  newline _ := by simp [compact]
  colon := ⟨[], by simp, by simp [compact]⟩

/-- Line breaks and indents are white space, and a colon may be followed by a blank. -/
theorem Layout.sound_pretty : Layout.pretty.Sound where
  newline depth := by simp [pretty, isGap]
  colon := ⟨[' '], by simp [isGap], by simp [pretty]⟩

/-! ### Texts of values -/

section
variable (layout : Layout) (depth : Nat) (item value : Json) (items : List Json) (name : String)
  (members : List (String × Json))

/-- An array is printed from its bracket to its bracket, each item on a line of its own if the
    layout breaks lines. -/
theorem toList_renderAt_array : (renderAt layout depth (.array (item :: items))).toList =
    '[' :: ((layout.newline (depth + 1)).toList ++ ((item.renderAt layout (depth + 1)).toList ++
      ((renderItems layout (depth + 1) items).toList ++
        ((layout.newline depth).toList ++ [']'])))) := by
  simp [renderAt]

theorem toList_renderItems_nil : (renderItems layout depth []).toList = [] := by
  simp [renderItems]

theorem toList_renderItems_cons : (renderItems layout depth (item :: items)).toList =
    ',' :: ((layout.newline depth).toList ++ ((item.renderAt layout depth).toList ++
      (renderItems layout depth items).toList)) := by
  simp [renderItems]

/-- So is an object, with names and colons. -/
theorem toList_renderAt_object : (renderAt layout depth (.object ((name, value) :: members))).toList =
    '\x7b' :: ((layout.newline (depth + 1)).toList ++ ((literal name).toList ++
      (layout.colon.toList ++ ((value.renderAt layout (depth + 1)).toList ++
        ((renderMembers layout (depth + 1) members).toList ++
          ((layout.newline depth).toList ++ ['\x7d'])))))) := by
  simp [renderAt]

theorem toList_renderMembers_nil : (renderMembers layout depth []).toList = [] := by
  simp [renderMembers]

theorem toList_renderMembers_cons : (renderMembers layout depth ((name, value) :: members)).toList =
    ',' :: ((layout.newline depth).toList ++ ((literal name).toList ++ (layout.colon.toList ++
      ((value.renderAt layout depth).toList ++ (renderMembers layout depth members).toList)))) := by
  simp [renderMembers]

end

/-! ### Whole values -/

variable {layout : Layout} {b : List Char}

/-- A printed string is a literal. -/
theorem spells_literal (s : String) :
    Document.Spells (.scalar (.ok (.string s)) none) (literal s).toList := by
  have spells := Document.Spells.string (isLiteral_flatMap s.toList)
  rw [textOf, readText_literal, ← toList_literal] at spells
  simpa [Except.map] using spells

theorem spellsName_literal (name : String) (gap : ∀ c ∈ b, isGap c = true) :
    SpellsName (.ok name) (b ++ ((literal name).toList ++ [':'])) := by
  have named := SpellsName.mk (isLiteral_flatMap name.toList) rfl
    ⟨b, [], gap, by simp, by rw [List.append_nil]⟩
  rw [textOf, readText_literal, ← toList_literal, List.append_assoc] at named
  simpa [Except.map] using named

/-- A number that fits into a machine word is printed as its digits. -/
theorem spells_number {n : Nat} (h : n ≤ maxWord) :
    Document.Spells (.scalar (.ok (.number (.integer false n))) none) (toString n).toList := by
  have spells := Document.Spells.number (Numeral.spells_toDigits n)
  rwa [Numeral.value_toDigits h, ← Nat.toList_repr, ← Nat.toString_eq_repr] at spells

mutual

/-- What is written of a value is a text of the value as it is read. -/
theorem spells_renderAt (sound : layout.Sound) : ∀ (j : Json) (depth : Nat), j.Fits →
    j.document.Spells (j.renderAt layout depth).toList
  | .null, _, _ => by
    rw [document, renderAt]
    exact .word (by simp [words])
  | .bool true, _, _ => by
    rw [document, renderAt, if_pos rfl]
    exact .word (by simp [words])
  | .bool false, _, _ => by
    rw [document, renderAt, if_neg (by simp)]
    exact .word (by simp [words])
  | .number _, _, fits => by
    rw [document, renderAt]
    exact spells_number fits
  | .string s, _, _ => by
    rw [document, renderAt]
    exact spells_literal s
  | .array [], _, _ => by
    rw [document, documents, renderAt]
    simpa using @Document.Spells.emptyArray [] (by simp)
  | .array (item :: items), depth, fits => by
    have spells := spells_renderAt sound item (depth + 1) fits.1
    have spells' := Document.Spells.array (spells_renderItems sound items (depth + 1) fits.2 spells
      (sound.newline (depth + 1)) (sound.newline depth))
    rw [document, documents, toList_renderAt_array]
    simpa using spells'
  | .object [], _, _ => by
    rw [document, memberDocuments, renderAt]
    simpa using @Document.Spells.emptyObject [] (by simp)
  | .object ((name, value) :: members), depth, fits => by
    have spells := spells_renderAt sound value (depth + 1) fits.1
    have spells' := Document.Spells.object (spells_renderMembers sound members (depth + 1) name
      fits.2 spells (sound.newline (depth + 1)) (sound.newline depth))
    rw [document, memberDocuments, toList_renderAt_object]
    simpa using spells'

theorem spells_renderItems (sound : layout.Sound) : ∀ (items : List Json) (depth : Nat)
    {d : Document} {text b b' : List Char}, FitItems items → d.Spells text →
    (∀ c ∈ b, isGap c = true) → (∀ c ∈ b', isGap c = true) →
      SpellsItems (d :: documents items)
        (b ++ (text ++ ((renderItems layout depth items).toList ++ b')))
  | [], depth, _, _, b, b', _, spells, gap, gap' => by
    rw [documents, toList_renderItems_nil]
    exact .last spells ⟨b, b', gap, gap', rfl⟩
  | item :: items, depth, _, _, b, b', fits, spells, gap, gap' => by
    have next := spells_renderAt sound item depth fits.1
    have later := spells_renderItems sound items depth fits.2 next (sound.newline depth) gap'
    rw [documents, toList_renderItems_cons]
    simpa using SpellsItems.cons spells ⟨b, [], gap, by simp, rfl⟩ later

/-- By induction on the members behind the first one. -/
theorem spells_renderMembers (sound : layout.Sound) : ∀ (members : List (String × Json)) (depth : Nat)
    (name : String) {d : Document} {text b b' : List Char}, FitMembers members → d.Spells text →
    (∀ c ∈ b, isGap c = true) → (∀ c ∈ b', isGap c = true) →
      SpellsMembers ((.ok name, d) :: memberDocuments members)
        (b ++ ((literal name).toList ++ (layout.colon.toList ++
          (text ++ ((renderMembers layout depth members).toList ++ b')))))
  | [], depth, name, _, _, b, b', _, spells, gap, gap' => by
    obtain ⟨space, blank, colon⟩ := sound.colon
    rw [memberDocuments, toList_renderMembers_nil, colon]
    have named := spellsName_literal name gap
    simpa using SpellsMembers.last named spells ⟨space, b', blank, gap', rfl⟩
  | (name', value) :: members, depth, name, _, _, b, b', fits, spells, gap, gap' => by
    obtain ⟨space, blank, colon⟩ := sound.colon
    have next := spells_renderAt sound value depth fits.1
    have later :=
      spells_renderMembers sound members depth name' fits.2 next (sound.newline depth) gap'
    have named := spellsName_literal name gap
    rw [colon] at later
    rw [memberDocuments, toList_renderMembers_cons, colon]
    simpa using SpellsMembers.cons named spells ⟨space, [], blank, by simp, rfl⟩ later

end

/-- A printed value is a text of its document. -/
theorem isTextOf_renderAt (sound : layout.Sound) {j : Json} (fits : j.Fits) (depth : Nat) :
    j.document.IsTextOf (j.renderAt layout depth) :=
  ⟨_, spells_renderAt sound j depth fits, [], [], by simp, by simp, by simp⟩

end ContextualQuery.Json
