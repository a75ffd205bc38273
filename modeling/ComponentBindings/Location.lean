import ComponentBindings.Graph.Basic

/-!
# Locations of modules

A generated module is one source file with one container in it: a package
object for what the host supplies, and a trait for what the guest implements.
-/

namespace ComponentBindings

/-- **Where a generated module lives.** -/
structure Location where
  /-- The package that the file opens, its segments escaped and joined. -/
  package : String
  /-- The name of the package object or trait, escaped. -/
  container : String
  /-- The directories from the output root to the file. -/
  segments : List String
  /-- The name of the file. -/
  fileName : String
  /-- Whether the module holds imports or exports. -/
  direction : Direction
  deriving DecidableEq, Repr

namespace Location

/-- The path of the file below the output root. -/
def path (l : Location) : String := "/".intercalate (l.segments ++ [l.fileName])

/-- The full name of a type that is declared in the module. The members of a
package object are selected from it, and the types in a trait are projected
from the trait. -/
def memberPath (l : Location) (typeName : String) : String :=
  match l.direction with
  | .imported => l.package ++ "." ++ l.container ++ "." ++ typeName
  | .exported => l.package ++ "." ++ l.container ++ "#" ++ typeName

end Location

end ComponentBindings
