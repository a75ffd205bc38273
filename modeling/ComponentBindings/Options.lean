import ComponentBindings.Text.Pieces

/-!
# Options of a run

A run is told the base package of all generated code, the world to generate
and whether the files start with a header. The base package is a name with
dots; what is checked is each segment between them.
-/

namespace ComponentBindings

/-- A letter of ASCII or an underscore. -/
def isSegmentStart (c : Char) : Bool := c.isAlpha || c = '_'

/-- A letter or digit of ASCII or an underscore. -/
def isSegmentPart (c : Char) : Bool := c.isAlphanum || c = '_'

/-- A segment starts with a letter or an underscore and goes on with letters,
digits and underscores; a line feed after them is let pass. -/
def isBaseSegment : List Char → Bool
  | [] => false
  | c :: rest =>
    let rest := if rest.getLast? = some '\n' then rest.dropLast else rest
    isSegmentStart c && rest.all isSegmentPart

/-- Whether every segment of a dotted name is one of a base package. -/
def isBasePackage (name : String) : Bool :=
  (Text.pieces (· = '.') name.toList).all isBaseSegment

/-- The base package of a run that is given none. -/
def defaultBasePackage : String := "componentmodel"

/-- **The options of a run.** -/
structure Options where
  /-- The package that everything is generated under. -/
  basePackage : String := defaultBasePackage
  /-- The world to generate, which may be left open where there is only one. -/
  world : Option String := none
  /-- Whether each file starts with a comment that says it is generated. -/
  header : Bool := true
  /-- The base package is made of segments. -/
  isBasePackage_basePackage : isBasePackage basePackage = true := by decide
  deriving Repr

namespace Options

/-- A base package that is refused. -/
structure InvalidBasePackage where
  /-- The name that was given. -/
  name : String

/-- Why a base package is refused. -/
def InvalidBasePackage.message (refusal : InvalidBasePackage) : String :=
  "Invalid base package '" ++ refusal.name ++ "'"

/-- The options of a run, unless the base package is refused. -/
def make (basePackage : String) (world : Option String) (header : Bool) :
    Except InvalidBasePackage Options :=
  if h : isBasePackage basePackage = true then .ok ⟨basePackage, world, header, h⟩
  else .error ⟨basePackage⟩

/-- The segments of the base package. -/
def baseSegments (o : Options) : List String :=
  (Text.pieces (· = '.') o.basePackage.toList).map String.ofList

end Options

end ComponentBindings
