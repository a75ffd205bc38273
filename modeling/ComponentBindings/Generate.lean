import ComponentBindings.Emit
import ComponentBindings.Layout
import ComponentBindings.Options

/-!
# Generating the bindings of a world

A run walks the imports of the selected world and then its exports. Every
interface becomes one module for each direction in which the world lists it.
The functions and types of the world itself go to a module of the world,
which is opened when the first of them is met.

A named type is declared once, in the module that `Assignment.locate` gives
for its owner: the import module of its interface, unless the world only
exports the interface. So the types of an interface that is imported and
exported are declared on the import side, and its export module refers to
them. An interface that is not listed at all, but whose types are mentioned,
is imported at the end of the run, for its types only; that can bring up
further interfaces.
-/

namespace ComponentBindings

/-- The world that the options select. -/
def selectWorld (g : Graph) (o : Options) : Except Fault World :=
  let names := g.worlds.map World.name
  match o.world with
  | some name =>
    match g.worlds.find? (·.name = name) with
    | some world => .ok world
    | none => .error (.unknownWorld name names)
  | none =>
    match g.worlds with
    | [] => .error (.unknownWorld none [])
    | [world] => .ok world
    | _ => .error (.ambiguousWorld names)

/-- **What a run assigns to modules**: the graph, its selected world, and the
layout of the packages. -/
structure Assignment where
  /-- The graph. -/
  graph : Graph
  /-- The selected world. -/
  world : World
  /-- The layout. -/
  layout : Layout

namespace Assignment

/-- Whether the world lists an interface in a direction. -/
def lists (a : Assignment) (direction : Direction) (interfaceId : Int) : Bool :=
  (a.world.items direction).any fun (_, item) => item = .interface interfaceId

/-- The items of the world in the order in which they are walked. -/
def items (a : Assignment) : List (Direction × Scalar × WorldItem) :=
  a.world.imports.map (Direction.imported, ·) ++ a.world.exports.map (Direction.exported, ·)

/-- The first key under which the world lists an interface. -/
def keyOf (a : Assignment) (interfaceId : Int) : Option Scalar :=
  (a.items.find? fun (_, _, item) => item = .interface interfaceId).map fun (_, key, _) => key

/-- The types among some items, with those of one more item. A type that is
there already keeps its direction. -/
def withItem (types : List (Int × Direction)) :
    Direction × Scalar × WorldItem → List (Int × Direction)
  | (direction, _, .type id) =>
    if types.any (·.1 = id) then types else types ++ [(id, direction)]
  | _ => types

/-- The types that the world lists, each with the first direction. -/
def worldTypes (a : Assignment) : List (Int × Direction) := a.items.foldl withItem []

/-- The direction of a type that is listed, if a world owns it. -/
def directionInWorld (a : Assignment) (worldId : Int) :
    Int × Direction → Except Fault (Option Direction)
  | (id, direction) => do
    let t ← a.graph.typeDef id
    return if t.owner = some (.world worldId) then some direction else none

/-- The direction of the module that declares the types of the selected
world. The types share one module, and an import decides. -/
def worldDirection (a : Assignment) (worldId : Int) : Except Fault Direction := do
  let owned ← a.worldTypes.filterMapM (a.directionInWorld worldId)
  return if owned.contains .imported || owned.isEmpty then .imported else .exported

/-- The direction of the module that declares the types of a world with a
given id. Those of a world that is not selected count as imports. -/
def ownedDirection (a : Assignment) (id : Int) (world : World) : Except Fault Direction :=
  if world.id = a.world.id then a.worldDirection id else .ok .imported

/-- The location of the module of an interface. An interface without a name
is called by its first key in the world, which has to be a text; that it is
none shows only after the segments of the package have been claimed. -/
def interfaceLocation (a : Assignment) (interfaceId : Int) (direction : Direction) :
    Emission Location := do
  let i ← Emission.ofExcept (a.graph.interface interfaceId)
  let name := (i.givenName.map Scalar.text <|> a.keyOf interfaceId).getD .null
  if name = .null then throw (.unnamedInterface interfaceId)
  let package ← Emission.ofExcept (a.graph.packageNameOf interfaceId)
  match name with
  | .text name => Emission.ofNaming (a.layout.interfaceLocation package name direction)
  | other =>
    let _ ← Emission.ofNaming (a.layout.packageSegments package direction)
    throw (.notText other)

/-- The location of the module of the selected world. -/
def worldLocation (a : Assignment) (direction : Direction) : Emission Location :=
  Emission.ofNaming (a.layout.worldLocation a.world.name direction)

/-- An interface that has been mentioned and has no import module yet is
noted. -/
def note (interfaceId : Int) : Emission Unit := modify fun s =>
  if s.modules.any (·.key = .interface interfaceId .imported) || s.pending.contains interfaceId
  then s else { s with pending := s.pending ++ [interfaceId] }

/-- **The module that declares the types of an owner.** -/
def locate (a : Assignment) : TypeOwner → Emission Location
  | .interface id => do
    if a.lists .imported id then a.interfaceLocation id .imported
    else if a.lists .exported id then a.interfaceLocation id .exported
    else
      note id
      a.interfaceLocation id .imported
  | .world id => do
    let world ← Emission.ofExcept (a.graph.world id)
    let direction ← Emission.ofExcept (a.ownedDirection id world)
    Emission.ofNaming (a.layout.worldLocation world.name direction)

/-- What the types of a module are written with. -/
def renderer (a : Assignment) (location : Location) : Renderer where
  graph := a.graph
  locate := a.locate
  scope := location

/-- A module is opened unless it is open already. -/
def openModule (key : ModuleKey) (location : Location) (docs : Option String) : Emission Unit :=
  modify fun s =>
    if s.modules.any (·.key = key) then s
    else { s with modules := s.modules ++ [{ key, location, docs }] }

/-- A change to an open module. -/
def changeModule (key : ModuleKey) (change : Module → Module) : Emission Unit :=
  modify fun s =>
    { s with modules := s.modules.map fun m => if m.key = key then change m else m }

/-- A declared type is added to its module. -/
def addType (key : ModuleKey) (d : TypeDeclaration) : Emission Unit :=
  changeModule key fun m =>
    if d.isResource then { m with resources := m.resources ++ [d] }
    else { m with types := m.types ++ [d] }

/-- A function is added to its module. -/
def addFunction (key : ModuleKey) (f : FreeFunction) : Emission Unit :=
  changeModule key fun m => { m with functions := m.functions ++ [f] }

/-- A resource is refused where the guest would have to implement it. -/
def refuseResource (identity : Scalar) (t : TypeDef) : Except Fault Unit :=
  if t.kind = .resource then .error (.exportedResource identity.shown t.name) else .ok ()

/-- Among types that are listed in a direction, resources are refused where
they are exported. -/
def refuseExported (a : Assignment) (direction : Direction) (identity : Scalar)
    (types : List Int) : Except Fault Unit :=
  match direction with
  | .imported => .ok ()
  | .exported => types.forM fun id => do refuseResource identity (← a.graph.typeDef id)

/-- A type is declared in its module. -/
def generateType (a : Assignment) (key : ModuleKey) (location : Location) (site : Site)
    (typeId : Int) : Emission Unit := do
  let t ← Emission.ofExcept (a.graph.typeDef typeId)
  addType key (← (a.renderer location).emitType site t)

/-- The types of an interface are declared in its module, if that is where its
types belong. -/
def generateTypes (a : Assignment) (i : Interface) (interfaceId : Int) (key : ModuleKey)
    (location : Location) (site : Site) : Emission Unit := do
  if (← a.locate (.interface interfaceId)) = location then
    i.types.forM fun (_, id) => a.generateType key location site id

/-- A function of its own is declared in its module. One that belongs to a
resource is emitted with it. -/
def generateFunction (a : Assignment) (key : ModuleKey) (location : Location) (site : Site)
    (f : Function) : Emission Unit := do
  if f.isFreestanding then
    addFunction key (← (a.renderer location).emitFunction site f)

/-- **The module of an interface in one direction**, with the types that it
declares and, unless only these are wanted, its functions. A module that is
open already is left alone. -/
def generateInterface (a : Assignment) (interfaceId : Int) (key : Option Scalar)
    (direction : Direction) (typesOnly : Bool := false) : Emission Unit := do
  let moduleKey := ModuleKey.interface interfaceId direction
  if (← get).modules.any (·.key = moduleKey) then return
  let i ← Emission.ofExcept (a.graph.interface interfaceId)
  let location ← a.interfaceLocation interfaceId direction
  let identity ← Emission.ofExcept
    (a.graph.identityOf interfaceId (key.filter (!·.isEmpty) <|> a.keyOf interfaceId))
  Emission.ofExcept (a.refuseExported direction identity (i.types.map Prod.snd))
  openModule moduleKey location i.docs
  let site : Site := ⟨direction, identity, location.path⟩
  a.generateTypes i interfaceId moduleKey location site
  if typesOnly then return
  i.functions.forM fun (_, f) => a.generateFunction moduleKey location site f

/-- The module of the world in one direction, opened if need be. -/
def worldModule (a : Assignment) (direction : Direction) : Emission Location := do
  let location ← a.worldLocation direction
  openModule (.world direction) location a.world.docs
  return location

/-- A function of the world itself. One that belongs to a resource is emitted
with it. -/
def generateWorldFunction (a : Assignment) (f : Function) (direction : Direction) :
    Emission Unit := do
  if f.isFreestanding then
    let location ← a.worldModule direction
    a.generateFunction (.world direction) location ⟨direction, worldIdentity, location.path⟩ f

/-- Whether a type that the world lists is declared in the module of the
world for the direction. A type without an owner is. -/
def declaresInWorld (a : Assignment) (t : TypeDef) (direction : Direction) : Emission Bool := do
  match t.owner with
  | none => return true
  | some owner =>
    let location ← a.locate owner
    if location.direction = direction then return location = (← a.worldLocation direction)
    else return false

/-- A type of the world itself. One that another module declares is left to
that module. -/
def generateWorldType (a : Assignment) (typeId : Int) (direction : Direction) :
    Emission Unit := do
  let t ← Emission.ofExcept (a.graph.typeDef typeId)
  Emission.ofExcept (a.refuseExported direction worldIdentity [typeId])
  if ← a.declaresInWorld t direction then
    let location ← a.worldModule direction
    a.generateType (.world direction) location ⟨direction, worldIdentity, location.path⟩ typeId

/-- An item of the world. -/
def generateItem (a : Assignment) : Direction × Scalar × WorldItem → Emission Unit
  | (direction, key, .interface id) => a.generateInterface id key direction
  | (direction, _, .function f) => a.generateWorldFunction f direction
  | (direction, _, .type id) => a.generateWorldType id direction

/-- **The interfaces that are imported for their types only.** The one that
was noted first is generated, then the one that is first after that, until
none is left; the interfaces that are `untaken` can still be taken. -/
def generatePending (a : Assignment) (untaken : List Int) : Emission Unit := do
  match (← get).pending.find? (· ∈ untaken) with
  | none => return
  | some id =>
    if _h : id ∈ untaken then
      modify fun s => { s with pending := s.pending.erase id }
      a.generateInterface id none .imported true
      a.generatePending (untaken.erase id)
termination_by untaken.length
decreasing_by
  have := List.length_erase_of_mem _h
  have := List.length_pos_of_mem _h
  omega

/-- All modules of the world. -/
def generateAll (a : Assignment) : Emission Unit := do
  a.items.forM a.generateItem
  a.generatePending ((List.range a.graph.interfaces.length).map Int.ofNat)

end Assignment

/-- A run over the selected world, from the layout to the last module. -/
def generateWorld (g : Graph) (o : Options) (world : World) : Emission Unit := do
  let layout ← Emission.ofNaming (Layout.start o.baseSegments)
  (Assignment.mk g world layout).generateAll

/-- **The modules of the world that the options select**, imports before
exports and before what is imported for its types only. -/
def generateModules (g : Graph) (o : Options) : Except Fault (List Module) := do
  let world ← selectWorld g o
  match generateWorld g o world {} with
  | .ok () s => .ok s.modules
  | .error fault _ => .error fault

/-- The files with one more written. A path that is there already keeps its
place and gets the new content. -/
def writeFile (files : List (String × String)) (path content : String) : List (String × String) :=
  if files.any (·.1 = path) then
    files.map fun file => if file.1 = path then (path, content) else file
  else files ++ [(path, content)]

/-- **The source files of the world that the options select**, by path. -/
def generate (g : Graph) (o : Options) : Except Fault (List (String × String)) := do
  let modules ← generateModules g o
  return modules.foldl (fun files m =>
    writeFile files m.location.path (m.sourceFile o.header).text) []

end ComponentBindings
