import ComponentBindings.Text.Ranges

/-!
# White space

The white-space characters are the twenty-five of the Unicode property and the four information
separators U+001C to U+001F. They separate the words of an identifier and are dropped from the ends
of a documentation comment and of a package name.
-/

namespace ComponentBindings.Text

/-- The white-space characters. -/
def blankRanges : List (Nat × Nat) :=
  [(0x09, 0x0D), (0x1C, 0x20), (0x85, 0x85), (0xA0, 0xA0), (0x1680, 0x1680), (0x2000, 0x200A),
   (0x2028, 0x2029), (0x202F, 0x202F), (0x205F, 0x205F), (0x3000, 0x3000)]

/-- A white-space character. -/
def isBlank (c : Char) : Bool := inRanges blankRanges c.toNat

example : blankRanges.foldl (fun n r => n + (r.2 + 1 - r.1)) 0 = 29 := by decide

/-- A text without the white space at its two ends. -/
def strip (cs : List Char) : List Char :=
  ((cs.dropWhile isBlank).reverse.dropWhile isBlank).reverse

/-- A string without the white space at its two ends. -/
def stripped (s : String) : String := String.ofList (strip s.toList)

end ComponentBindings.Text
