import ComponentBindings.Text.Ranges

/-!
# Lines

A line ends at a line feed, a carriage return, the two together, a vertical tab, a form feed, one of
the separators U+001C to U+001E, U+0085, U+2028 or U+2029. A boundary ends the line before it, so a
text that ends with a boundary has no empty line after it.
-/

namespace ComponentBindings.Text

/-- A character that ends a line. -/
def isLineBoundary (c : Char) : Bool :=
  inRanges [(0x0A, 0x0D), (0x1C, 0x1E), (0x85, 0x85), (0x2028, 0x2029)] c.toNat

/-- The lines of a text, without the boundaries that end them. -/
def lines : List Char → List (List Char)
  | [] => []
  | '\r' :: '\n' :: rest => [] :: lines rest
  | c :: rest =>
    if isLineBoundary c then [] :: lines rest
    else match lines rest with
      | [] => [[c]]
      | line :: more => (c :: line) :: more

/-- A text has no lines exactly if it is empty. -/
theorem lines_eq_nil_iff {cs : List Char} : lines cs = [] ↔ cs = [] := by
  fun_cases lines cs <;> simp

/-- A character that ends no line is the first of its line. -/
theorem lines_cons {c : Char} (h : isLineBoundary c = false) (rest : List Char) :
    lines (c :: rest) = (c :: (lines rest).headD []) :: (lines rest).tail := by
  have hreturn : c ≠ '\r' := by
    rintro rfl
    cases h
  rw [lines.eq_3 _ _ fun _ heq => absurd heq hreturn, if_neg (by simp [h])]
  cases lines rest <;> rfl

/-- A character that ends a line parts the text, unless it is the first of two
that end it together. -/
theorem lines_cons_boundary {c : Char} (h : isLineBoundary c = true) {rest : List Char}
    (hpair : c = '\r' → rest.head? ≠ some '\n') : lines (c :: rest) = [] :: lines rest := by
  rw [lines.eq_3 _ _ fun more hc hrest => ?_, if_pos h]
  subst hrest
  exact hpair hc rfl

/-- The lines of a string, without the boundaries that end them. -/
def splitLines (s : String) : List String := (lines s.toList).map String.ofList

end ComponentBindings.Text
