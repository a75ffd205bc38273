import ComponentBindings.Text.Lines

/-!
# Indented code

Code is built line by line at a current depth, and every depth adds two
spaces in front of a line. An empty line stays empty at any depth. A text of
several lines is added line by line, so a declaration that was built on its
own can be set into a module at the depth where it belongs.

The steps of building are data, `CodeStep`, so that what is built can be said
apart from the building: `CodeBlock.run` carries out steps, and
`CodeStep.render` is the text of steps on their own.
-/

namespace ComponentBindings

/-- Lines of code and the depth at which the next line is added. A depth
below zero indents no line. -/
structure CodeBlock where
  /-- The current depth. -/
  depth : Int := 0
  /-- The lines so far. -/
  lines : List String := []
  deriving DecidableEq, Repr

/-- **A step of building code.** -/
inductive CodeStep where
  /-- Add one line. -/
  | line (text : String)
  /-- Add the lines of a text. -/
  | lines (text : String)
  /-- Take steps one level deeper. -/
  | indented (steps : List CodeStep)

namespace CodeBlock

/-- What stands in front of a line at a depth. -/
def indentation (depth : Int) : String := String.ofList (List.replicate (2 * depth.toNat) ' ')

/-- A line as it stands at a depth. -/
def place (depth : Int) (line : String) : String :=
  if line = "" then "" else indentation depth ++ line

/-- The block with a line added. -/
def addLine (b : CodeBlock) (line : String) : CodeBlock :=
  { b with lines := b.lines ++ [place b.depth line] }

/-- The block with the lines of a text added. -/
def addLines (b : CodeBlock) (text : String) : CodeBlock :=
  { b with lines := b.lines ++ (Text.splitLines text).map (place b.depth) }

/-- The block one level deeper. -/
def deeper (b : CodeBlock) : CodeBlock := { b with depth := b.depth + 1 }

/-- The block one level less deep. -/
def shallower (b : CodeBlock) : CodeBlock := { b with depth := b.depth - 1 }

mutual

/-- The block after a step. -/
def step (b : CodeBlock) : CodeStep → CodeBlock
  | .line text => b.addLine text
  | .lines text => b.addLines text
  | .indented steps => (b.deeper.run steps).shallower

/-- The block after steps, taken in order. -/
def run (b : CodeBlock) : List CodeStep → CodeBlock
  | [] => b
  | s :: rest => (b.step s).run rest

end

/-- The lines of the block as one text, with no boundary after the last. -/
def code (b : CodeBlock) : String := "\n".intercalate b.lines

end CodeBlock

/-- The text of steps on their own. -/
def CodeStep.render (steps : List CodeStep) : String := (CodeBlock.run {} steps).code

end ComponentBindings
