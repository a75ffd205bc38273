import ComponentBindings.Identifier.Claims
import ComponentBindings.Location

/-!
# The layout of the generated packages

Imports live under a base package, extended by the namespace and the name of
the WIT package, and exports under its subpackage `exports`, extended in the
same way. So with the base `com.example`

* `wasi:io/streams@0.2.0`, imported, is the package object
  `com.example.wasi.io.streams`, and
* `my:app/handler@1.0.0`, exported, is the trait
  `com.example.exports.my.app.Handler`.

Versions are left out of the names. Two names that would share a package, a
file or the root of the exports are told apart by the claims that a location
makes for every segment it uses.
-/

namespace ComponentBindings

/-- The subpackage of all exports. -/
def exportsSegment : String := "exports"

/-- **A layout**: the segments of the package that everything lives under. -/
structure Layout where
  /-- The segments, not escaped. -/
  base : List String

/-- The scope in which the names of one level are claimed. -/
def packageScope (segments : List String) : String := ".".intercalate (segments.map unescape)

namespace Layout

/-- A layout on a base package. The root of the exports claims its segment
before any namespace can. -/
def start (base : List String) : Naming Layout := do
  claim (".".intercalate base) exportsSegment ("<" ++ exportsSegment ++ ">")
  return ⟨base⟩

/-- The segments, escaped, that everything in one direction lives under. -/
def root (l : Layout) : Direction → List String
  | .imported => l.base.map (escape reservedWords)
  | .exported => l.base.map (escape reservedWords) ++ [exportsSegment]

/-- The segments of the modules of a package; without one they are those of
the root. -/
def packageSegments (l : Layout) (package : Option PackageName) (direction : Direction) :
    Naming (List String) := do
  let root := l.root direction
  match package with
  | none => return root
  | some package =>
    let ns ← declare .module package.ns (packageScope root)
    let name ← declare .module package.name (packageScope (root ++ [ns]))
    return root ++ [ns, name]

/-- The name of the container of a module: a package object is called like its
file or directory, and a trait like a type. -/
def containerName (module name : String) : Direction → Naming String
  | .imported => pure module
  | .exported => convert .type name

/-- **The location of an interface.** The package is absent for an interface
that a world writes inline, whose name is then its key in the world. The file
is claimed for the full identity, so that two versions of one interface do
not share it. -/
def interfaceLocation (l : Layout) (package : Option PackageName) (name : String)
    (direction : Direction) : Naming Location := do
  let segments ← l.packageSegments package direction
  let scope := packageScope segments
  let module ← declare .module name scope
  claim (scope ++ ":identity") module (package.elim name (·.identity name))
  let container ← containerName module name direction
  return {
    package := ".".intercalate segments
    container
    segments := segments.map unescape
    fileName := unescape module ++ ".scala"
    direction }

/-- **The location of a world**, that is of its own functions and types. The
module stands beside the namespaces of the same root and claims its segment
among them. -/
def worldLocation (l : Layout) (name : String) (direction : Direction) : Naming Location := do
  let module ← convert .module name
  let root := l.root direction
  claim (packageScope root) module ("<world " ++ name ++ ">")
  let container ← containerName module name direction
  return {
    package := ".".intercalate (match direction with
      | .imported => root
      | .exported => root ++ [module])
    container
    segments := (root ++ [module]).map unescape
    fileName := "package.scala"
    direction }

end Layout

end ComponentBindings
