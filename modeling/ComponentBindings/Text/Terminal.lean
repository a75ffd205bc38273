/-!
# Lines without terminal control

A control sequence of a terminal is an escape character, an opening bracket,
any number of digits, semicolons and question marks, and a letter. What the
program prints is not meant for a terminal, so that control sequences are
left out. One pass is made: what stands side by side only because a sequence
between it has been left out is kept.
-/

namespace ComponentBindings.Text

/-- The escape character. -/
def escapeChar : Char := '\x1b'

/-- A character that may stand between the bracket and the letter. -/
def isControlPart (c : Char) : Bool := c.isDigit || c = ';' || c = '?'

/-- Whether a control sequence that has been read up to here, the last
character first, can go on with a character. -/
def goesOn (started : List Char) (c : Char) : Bool :=
  match started with
  | [] => c = escapeChar
  | [_] => c = '['
  | _ => isControlPart c

/-- A text without control sequences, behind the characters of one that has
been started, the last one first. -/
def withoutControlAfter (started : List Char) : List Char → List Char
  | [] => started.reverse
  | c :: rest =>
    if goesOn started c then withoutControlAfter (c :: started) rest
    else if 2 ≤ started.length && c.isAlpha then withoutControlAfter [] rest
    else if c = escapeChar then started.reverse ++ withoutControlAfter [c] rest
    else started.reverse ++ c :: withoutControlAfter [] rest

/-- **A text without control sequences.** -/
def withoutControl (s : String) : String := String.ofList (withoutControlAfter [] s.toList)

/-- A text without an escape character is kept. -/
theorem withoutControlAfter_of_notMem {cs : List Char} (h : escapeChar ∉ cs) :
    withoutControlAfter [] cs = cs := by
  induction cs with
  | nil => rfl
  | cons c rest ih =>
    obtain ⟨hc, hrest⟩ : escapeChar ≠ c ∧ escapeChar ∉ rest := by simpa using h
    simp [withoutControlAfter, goesOn, ih hrest, hc.symm]

end ComponentBindings.Text
