import ComponentBindings.Graph.Basic

/-!
# Closed graphs

A graph is closed when every id that is stored in it points at an entry of
its arena, and every handle and every method, static function and
constructor points at a resource. `Graph.checkClosed` walks a graph in a
fixed order (packages, interfaces, types, worlds) and stops at the first id
that breaks the rule; the fault names the entry that holds the id.
-/

namespace ComponentBindings

namespace Graph

/-- An id has to point into an arena. -/
def checkEntry {α : Type} (arena : Arena) (entries : List α) (id : Int) (context : String) :
    Except Fault Unit :=
  if (entryAt entries id).isSome then .ok () else .error (.dangling arena id context)

/-- A type reference has to be a primitive or point into the type arena. -/
def checkRef (g : Graph) (context : String) : TypeRef → Except Fault Unit
  | .primitive _ => .ok ()
  | .defined id => checkEntry .types g.types id context

/-- An id has to point at a resource. -/
def checkResource (g : Graph) (context : String) (id : Int) : Except Fault Unit := do
  match entryAt g.types id with
  | none => .error (.dangling .types id context)
  | some t => if t.kind = .resource then .ok () else .error (.malformed (.notResource id) context)

/-- The types of a function, and the resource that it belongs to. -/
def checkFunction (g : Graph) (context : String) (f : Function) : Except Fault Unit := do
  let context := s!"{context}/{f.name}"
  f.params.forM fun p => g.checkRef context p.type
  f.results.forM (g.checkRef context)
  f.attachment.resource?.forM (g.checkResource context)

/-- The interfaces and worlds of a package. -/
def checkPackage (g : Graph) (p : Package) : Except Fault Unit := do
  p.interfaces.forM fun (_, id) => checkEntry .interfaces g.interfaces id p.name.identity
  p.worlds.forM fun (_, id) => checkEntry .worlds g.worlds id p.name.identity

/-- The package, types and functions of an interface. -/
def checkInterface (g : Graph) (i : Interface) : Except Fault Unit := do
  let context := i.givenName.getD s!"interface {i.id}"
  i.package.forM fun id => checkEntry .packages g.packages id context
  i.types.forM fun (_, id) => checkEntry .types g.types id context
  i.functions.forM fun (_, f) => g.checkFunction context f

/-- The owner of a type. -/
def checkOwner (g : Graph) (context : String) : TypeOwner → Except Fault Unit
  | .interface id => checkEntry .interfaces g.interfaces id context
  | .world id => checkEntry .worlds g.worlds id context

/-- The owner of a type and what the type is made of. -/
def checkTypeDef (g : Graph) (t : TypeDef) : Except Fault Unit := do
  let context := (t.name.filter (· ≠ "")).getD s!"type {t.id}"
  t.owner.forM (g.checkOwner context)
  t.kind.parts.forM (g.checkRef context)
  match t.kind with
  | .handle resource _ => g.checkResource context resource
  | _ => pure ()

/-- What an item of a world refers to. -/
def checkItem (g : Graph) (context : String) : WorldItem → Except Fault Unit
  | .interface id => checkEntry .interfaces g.interfaces id context
  | .type id => checkEntry .types g.types id context
  | .function f => g.checkFunction context f

/-- The package and the items of a world. -/
def checkWorld (g : Graph) (w : World) : Except Fault Unit := do
  w.package.forM fun id => checkEntry .packages g.packages id w.name
  (w.imports ++ w.exports).forM fun (key, item) =>
    g.checkItem (w.name ++ "/" ++ key.shown) item

/-- **The check that a graph is closed.** -/
def checkClosed (g : Graph) : Except Fault Unit := do
  g.packages.forM g.checkPackage
  g.interfaces.forM g.checkInterface
  g.types.forM g.checkTypeDef
  g.worlds.forM g.checkWorld

end Graph

end ComponentBindings
