/-!
# Places in a text

A cursor is what is left of a text, with the line and the column of its first
character and the count of all characters before it.
-/

namespace ComponentBindings.Yaml

/-- A place in a text. -/
structure Cursor where
  /-- What is left of the text. -/
  rest : List Char
  /-- How many characters stand before it. -/
  index : Nat := 0
  /-- How many lines end before it. -/
  line : Nat := 0
  /-- How many characters stand before it on its line. -/
  column : Nat := 0

/-- A character that ends a line. Carriage returns have been replaced before
the text is read. -/
def isBreak (c : Char) : Bool := c = '\n' || c = '\u0085' || c = '\u2028' || c = '\u2029'

/-- A character that ends a word: a blank or the end of a line. -/
def isSpace (c : Char) : Bool := c = ' ' || c = '\t' || isBreak c

/-- Whether a text is at its end or starts with a character that ends a word. -/
def atSpace : List Char → Bool
  | [] => true
  | c :: _ => isSpace c

namespace Cursor

/-- The place after the next character. A byte order mark takes no column. -/
def next (c : Cursor) : Cursor :=
  match c.rest with
  | [] => c
  | d :: rest =>
    if isBreak d then { rest, index := c.index + 1, line := c.line + 1, column := 0 }
    else { rest, index := c.index + 1, line := c.line,
           column := if d = '\uFEFF' then c.column else c.column + 1 }

/-- The place after a number of characters. -/
def skip (c : Cursor) : Nat → Cursor
  | 0 => c
  | n + 1 => c.next.skip n

/-- The longest text at a place whose characters all have a property, and
the place after it. -/
def span (c : Cursor) (p : Char → Bool) : List Char × Cursor :=
  let text := c.rest.takeWhile p
  (text, c.skip text.length)

/-- Whether three equal marks of a document boundary stand at a place, at the
end of a word. -/
def atBoundary (c : Cursor) : Bool :=
  match c.rest with
  | '-' :: '-' :: '-' :: rest => atSpace rest
  | '.' :: '.' :: '.' :: rest => atSpace rest
  | _ => false

end Cursor

/-- What the end of a line stands for in a scalar: a line feed, or one of the
two separators as it is. -/
def breakChar (c : Char) : Char := if c = '\u2028' || c = '\u2029' then c else '\n'

/-- What a folded stretch between two words stands for. The first end of a
line is a space if it is the only one and is dropped if more follow; the two
separators are kept. -/
def fold (first : Char) (more : List Char) : List Char :=
  if breakChar first ≠ '\n' then breakChar first :: more
  else if more.isEmpty then [' '] else more

end ComponentBindings.Yaml
