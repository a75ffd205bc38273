import ComponentBindings.Location
import ComponentBindings.Source.Marker
import ComponentBindings.Source.CodeBlock
import ComponentBindings.Source.DocComment

/-!
# Source files

A source file holds the declarations of one module, as texts and in three
sections. It is open at first, and declarations can be added. Rendering it
fixes its content: the text that is rendered first is the text for good, and
nothing can be added after that.
-/

namespace ComponentBindings

/-- The sections of a source file, in their order. -/
inductive Section where
  /-- Types other than resources. -/
  | types
  /-- Resources. -/
  | resources
  /-- Functions that belong to no resource. -/
  | functions
  deriving DecidableEq, Repr

/-- All sections in their order. -/
def Section.all : List Section := [types, resources, functions]

/-- The comment over a section. -/
def Section.title : Section → String
  | types => "Type definitions"
  | resources => "Resources"
  | functions => "Functions"

/-- The comment at the head of a file. -/
def generatedHeader : String := "// Generated by wit2scala. DO NOT EDIT."

/-- What opens the container of a module: one line for a package object, and
for the trait of an exported interface its annotation and a line. -/
def Location.opener (l : Location) : String :=
  match l.direction with
  | .imported => "package object " ++ l.container ++ " \x7b"
  | .exported =>
    Marker.exportedInterface.render ++ "\ntrait " ++ l.container ++ " \x7b"

/-- **A source file.** -/
structure SourceFile where
  /-- Where the file lives. -/
  location : Location
  /-- The documentation of the module. -/
  docs : Option String
  /-- Whether the file starts with a comment that says it is generated. -/
  header : Bool
  /-- The declarations of each section, in order. -/
  sections : Section → List String := fun _ => []
  /-- The text of the file, once it has been rendered. -/
  rendered : Option String := none

namespace SourceFile

/-- The file with a declaration added to a section. -/
def add (f : SourceFile) (s : Section) (declaration : String) : Except Fault SourceFile :=
  if f.rendered.isSome then .error (.alreadyRendered f.location.path)
  else .ok { f with sections := fun t => if t = s then f.sections t ++ [declaration]
                                         else f.sections t }

/-- A section with its title, unless there is nothing in it. -/
def sectionSteps (f : SourceFile) (s : Section) : List CodeStep :=
  if (f.sections s).isEmpty then []
  else [.line "", .line ("// " ++ s.title)] ++
    (f.sections s).flatMap fun declaration => [.line "", .lines declaration]

/-- The steps that build the file. -/
def steps (f : SourceFile) : List CodeStep :=
  (if f.header then [.line generatedHeader, .line ""] else []) ++
  [.line ("package " ++ f.location.package), .line "", .lines (docComment f.docs),
   .lines f.location.opener, .indented (Section.all.flatMap f.sectionSteps), .line "\x7d"]

/-- The text of the file. -/
def text (f : SourceFile) : String :=
  f.rendered.getD (CodeStep.render f.steps ++ "\n")

/-- The file with its content fixed. -/
def freeze (f : SourceFile) : SourceFile := { f with rendered := f.text }

end SourceFile

end ComponentBindings
