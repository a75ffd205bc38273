import ComponentBindings.Declaration
import ComponentBindings.Identifier.Claims
import ComponentBindings.SourceFile

/-!
# The state of a run

A run collects modules. On the way it claims identifiers, remembers how it
has written types, and notes the interfaces whose types have been mentioned
and which nobody has generated yet. `Session` holds all of that and
`Emission` is a computation on it that may end in a fault.
-/

namespace ComponentBindings

/-- What a module is generated for. -/
inductive ModuleKey where
  /-- One direction of an interface. -/
  | interface (id : Int) (direction : Direction)
  /-- The functions and types of the world itself in one direction. -/
  | world (direction : Direction)
  deriving DecidableEq, Repr

/-- **A generated module.** -/
structure Module where
  /-- What it was generated for. -/
  key : ModuleKey
  /-- Where it lives. -/
  location : Location
  /-- Its documentation. -/
  docs : Option String
  /-- The types it declares, resources aside. -/
  types : List TypeDeclaration := []
  /-- The resources it declares. -/
  resources : List TypeDeclaration := []
  /-- The functions it declares. -/
  functions : List FreeFunction := []

/-- The source file of a module. -/
def Module.sourceFile (m : Module) (header : Bool) : SourceFile where
  location := m.location
  docs := m.docs
  header := header
  sections
    | .types => m.types.map TypeDeclaration.text
    | .resources => m.resources.map TypeDeclaration.text
    | .functions => m.functions.map FreeFunction.text

/-- **The state of a run.** -/
structure Session where
  /-- The identifiers that have been claimed. -/
  claims : Claims := []
  /-- How named types have been referred to, by their id and the module the
  reference stands in. -/
  references : List ((Int × Option Location) × String) := []
  /-- How inline composites have been written, by their shape and, where the
  text depends on it, the module they stand in. -/
  instantiations : List ((Option Location × Shape) × String) := []
  /-- The modules, in the order in which they were opened. -/
  modules : List Module := []
  /-- Interfaces that have been referred to and have no module yet, in the
  order in which they were met. -/
  pending : List Int := []

/-- Computations on the state of a run. -/
abbrev Emission := EStateM Fault Session

namespace Emission

/-- A computation that only makes claims. -/
def ofNaming {α : Type} (x : Naming α) : Emission α := fun s =>
  match x s.claims with
  | .ok a claims => .ok a { s with claims }
  | .error fault claims => .error fault { s with claims }

/-- A computation that needs no state. -/
def ofExcept {α : Type} : Except Fault α → Emission α
  | .ok a => pure a
  | .error fault => throw fault

end Emission

end ComponentBindings
