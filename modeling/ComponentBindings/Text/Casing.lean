import ComponentBindings.Text.Casing.Context
import ComponentBindings.Text.Casing.Lowercase
import ComponentBindings.Text.Casing.Uppercase

/-!
# Letter case

Upper and lower case with the full Unicode mappings: a form may be longer than the character it is
the form of (`ß` becomes `SS`, `İ` becomes `i` and a combining dot), and a capital sigma is lowered
by its place in the word.
-/

namespace ComponentBindings.Text

/-- The lower-case form of a character that stands alone. -/
def lowerChar (c : Char) : List Char :=
  if c.toNat < 0x80 then [c.toLower]
  else if c = 'İ' then ['i', '\u0307']
  else [Char.ofNat (shifted lowercaseRuns c.toNat)]

/-- The upper-case form of a character. -/
def upperChar (c : Char) : List Char :=
  if c.toNat < 0x80 then [c.toUpper]
  else match uppercaseSequences.lookup c.toNat with
    | some form => form.map Char.ofNat
    | none => [Char.ofNat (shifted uppercaseRuns c.toNat)]

/-- Whether the nearest character that is not case-ignorable is cased. -/
def meetsCased (cs : List Char) : Bool :=
  (cs.find? fun c => !isCaseIgnorable c).any isCased

/-- Lower case of a text of which `before`, the last character first, has been read. -/
def lowerAfter (before : List Char) : List Char → List Char
  | [] => []
  | c :: rest =>
    (if c = 'Σ' then [if meetsCased before && !meetsCased rest then 'ς' else 'σ']
      else lowerChar c) ++ lowerAfter (c :: before) rest

/-- The lower-case form of a text. -/
def lower (cs : List Char) : List Char := lowerAfter [] cs

/-- A text with its first character in upper case. -/
def capitalize : List Char → List Char
  | [] => []
  | c :: rest => upperChar c ++ rest

end ComponentBindings.Text
