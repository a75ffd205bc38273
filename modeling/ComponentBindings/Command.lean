import ComponentBindings.Generate
import ComponentBindings.Graph.Load
import ComponentBindings.Path

/-!
# Commands

There are two commands. One generates the source files of a world below an
output directory, or with a dry run only lists their paths; the other lists
the worlds of a document.

What a command is going to do is decided before it does anything: from the
text of its document follow a `Plan`, that is the lines to print and the
files to write, or the reason why there is none. So no file is written
unless all of them could be generated.

Three things are left to `Libraries`: to read the document in a text, to read
the command in arguments, and to print a line. Whatever is said of a run is
said for all libraries, or for those of which something is known.
-/

namespace ComponentBindings

/-- How source files are generated. -/
structure Settings where
  /-- The directory that the files go below. -/
  outDir : Path := ⟨0, ["generated"]⟩
  /-- The package that everything is generated under. -/
  basePackage : String := defaultBasePackage
  /-- The world to generate, which may be left open where there is only one. -/
  world : Option String := none
  /-- Whether each file starts with a comment that says it is generated. -/
  header : Bool := true
  /-- Whether the paths of the files are only listed. -/
  dryRun : Bool := false
  /-- Whether every file that is written is reported. -/
  verbose : Bool := false
  deriving Repr

/-- **A command.** -/
inductive Command where
  /-- The source files of a world are generated. -/
  | generate (document : Path) (settings : Settings)
  /-- The worlds of a document are listed. -/
  | worlds (document : Path)
  deriving Repr

/-- The path of the document that a command reads. -/
def Command.document : Command → Path
  | generate document _ => document
  | worlds document => document

/-- **Why arguments are refused.** -/
inductive UsageError where
  /-- There is no command. -/
  | missingCommand
  /-- A command does not exist. -/
  | unknownCommand (name : String)
  /-- An option does not exist. -/
  | unknownOption (name : String)
  /-- An option needs a value and has none. -/
  | missingValue (name : String)
  /-- A switch has a value. -/
  | unexpectedValue (name : String)
  /-- There is no document. -/
  | missingDocument
  /-- There is more than one document. -/
  | extraArgument (text : String)
  /-- A path holds the character that ends a path. -/
  | pathWithNul
  deriving DecidableEq, Repr

/-- The exit status of the program on arguments that are refused. -/
def UsageError.exitCode : UsageError → Nat
  | pathWithNul => 1
  | _ => 2

/-- The reason in words. -/
def UsageError.message : UsageError → String
  | missingCommand => "Missing command."
  | unknownCommand name => s!"No such command '{name}'."
  | unknownOption name => s!"No such option: {name}"
  | missingValue name => s!"Option '{name}' requires an argument."
  | unexpectedValue name => s!"Option '{name}' does not take a value."
  | missingDocument => "Missing argument 'DOCUMENT'."
  | extraArgument text => s!"Got unexpected extra argument ({text})"
  | pathWithNul => "embedded null byte"

/-- **What the program leaves to libraries.** -/
structure Libraries where
  /-- The document that a text is. -/
  read : String → Except Fault Document
  /-- The command that arguments say, given the base package of the
  environment. -/
  command : Option String → List String → Except UsageError Command
  /-- What is printed of a line. -/
  echo : String → String

/-- **What a command is going to do.** -/
structure Plan where
  /-- The lines to print. -/
  lines : List String := []
  /-- The files to write, in order. -/
  writes : List (Path × String) := []
  deriving Repr

/-- Whether all lines of a plan can be printed. -/
def Plan.isPrintable (p : Plan) : Bool := p.lines.all Text.isEncodable

/-- What a plan prints, line by line: its lines up to the first one that cannot
be encoded. -/
def Plan.printed (p : Plan) (l : Libraries) : List String :=
  (p.lines.takeWhile Text.isEncodable).map l.echo

/-- The text that a plan prints. -/
def Plan.output (p : Plan) (l : Libraries) : String :=
  String.join ((p.printed l).map (· ++ "\n"))

/-- **Why a command does nothing.** -/
inductive Refusal where
  /-- The base package is not one. -/
  | basePackage (name : String)
  /-- The document cannot be read. -/
  | missingDocument (document : Path)
  /-- The document does not describe a graph, or nothing can be generated
  from the graph. -/
  | fault (f : Fault)

/-- The exit status of a command that does nothing. -/
def Refusal.exitCode : Refusal → Nat
  | basePackage _ | missingDocument _ => 1
  | fault f => f.exitCode

/-- The reason in words. -/
def Refusal.message : Refusal → String
  | basePackage name => (Options.InvalidBasePackage.mk name).message
  | missingDocument document => "Failed to read " ++ document.text
  | fault f => f.diagnostic.text

/-- The graph in the text of a document, which is absent if the document
cannot be read. -/
def loadDocument (l : Libraries) (document : Path) (text : Option String) :
    Except Refusal Graph :=
  match text with
  | none => .error (.missingDocument document)
  | some text => (Graph.load l.read text).mapError .fault

/-- The options that settings have. -/
def Settings.options (s : Settings) : Except Refusal Options :=
  (Options.make s.basePackage s.world s.header).mapError fun refused => .basePackage refused.name

/-- The plan for generated files: they are written below the output
directory, or their paths there are printed. -/
def Settings.plan (s : Settings) (files : List (String × String)) : Plan :=
  let writes := files.map fun (path, content) => (s.outDir.join (.ofString path), content)
  if s.dryRun then { lines := writes.map fun (path, _) => path.text } else { writes }

/-- The line for a world: its name and, if it belongs to a package, the
package. -/
def Graph.worldLine (g : Graph) (w : World) : Except Fault String :=
  match w.package with
  | none => .ok w.name
  | some id => do
    let package ← g.package id
    return s!"{w.name} (" ++ package.name.identity ++ ")"

/-- **The plan of a command**, given the text of its document. -/
def Command.plan (l : Libraries) (text : Option String) : Command → Except Refusal Plan
  | generate document s => do
    let options ← s.options
    let g ← loadDocument l document text
    let files ← (ComponentBindings.generate g options).mapError .fault
    return s.plan files
  | worlds document => do
    let g ← loadDocument l document text
    let lines ← (g.worlds.mapM g.worldLine).mapError .fault
    return { lines }

end ComponentBindings
