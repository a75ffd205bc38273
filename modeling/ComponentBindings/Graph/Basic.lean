import ComponentBindings.Graph.PackageName

/-!
# Resolved graphs

A resolved graph holds the packages, interfaces, types and worlds of a
component, each in an arena where an entry is addressed by its position.
Composite types that are written inline, such as a list of points, are
entries of the type arena without a name, so that a reference to a type is
either a primitive or an id.

Ids are integers as the document has them. An id below zero or beyond the
end of its arena points nowhere, and looking it up is a fault
(`Graph.typeDef`, `Graph.interface`, `Graph.package`, `Graph.world`); a graph
that is decoded from a document has none (`Graph.Closed`).
-/

namespace ComponentBindings

/-- The scalar types. -/
inductive Primitive where
  /-- Truth values. -/
  | bool
  /-- Signed integers of 8 bits. -/
  | s8
  /-- Unsigned integers of 8 bits. -/
  | u8
  /-- Signed integers of 16 bits. -/
  | s16
  /-- Unsigned integers of 16 bits. -/
  | u16
  /-- Signed integers of 32 bits. -/
  | s32
  /-- Unsigned integers of 32 bits. -/
  | u32
  /-- Signed integers of 64 bits. -/
  | s64
  /-- Unsigned integers of 64 bits. -/
  | u64
  /-- Floating-point numbers of 32 bits. -/
  | f32
  /-- Floating-point numbers of 64 bits. -/
  | f64
  /-- Characters. -/
  | char
  /-- Texts. -/
  | string
  deriving DecidableEq, Repr

/-- A reference to a type: a primitive, or the id of a type definition. -/
inductive TypeRef where
  /-- A primitive. -/
  | primitive (p : Primitive)
  /-- An entry of the type arena. -/
  | defined (id : Int)
  deriving DecidableEq, Repr

/-- Whether an item is supplied by the host or implemented by the guest. -/
inductive Direction where
  /-- Supplied by the host. -/
  | imported
  /-- Implemented by the guest. -/
  | exported
  deriving DecidableEq, Repr

/-- The interface or world that declares a type. -/
inductive TypeOwner where
  /-- An interface. -/
  | interface (id : Int)
  /-- A world. -/
  | world (id : Int)
  deriving DecidableEq, Repr

/-- A named field of a record. -/
structure Field where
  /-- The name of the field. -/
  name : String
  /-- The type of its values. -/
  type : TypeRef
  /-- Its documentation comment. -/
  docs : Option String
  deriving DecidableEq, Repr

/-- A case of a variant. -/
structure Case where
  /-- The name of the case. -/
  name : String
  /-- The type of what the case carries, if it carries anything. -/
  payload : Option TypeRef
  /-- Its documentation comment. -/
  docs : Option String
  deriving DecidableEq, Repr

/-- A case of an enumeration. -/
structure Label where
  /-- The name of the case. -/
  name : String
  /-- Its documentation comment. -/
  docs : Option String
  deriving DecidableEq, Repr

/-- The kinds of types, each with what it is made of. -/
inductive TypeKind where
  /-- Named fields. -/
  | record (fields : List Field)
  /-- One of several cases that may carry a value. -/
  | variant (cases : List Case)
  /-- One of several cases that carry nothing. -/
  | enumeration (labels : List Label)
  /-- A set of named bits. -/
  | flags (names : List String)
  /-- A thing that is held by a handle. -/
  | resource
  /-- A handle on a resource, which it owns or borrows. -/
  | handle (resource : Int) (borrowed : Bool)
  /-- Another name of a type. -/
  | aliasOf (target : TypeRef)
  /-- Values in order. -/
  | list (element : TypeRef)
  /-- A value that may be absent. -/
  | option (element : TypeRef)
  /-- A success or a failure, either of which may carry a value. -/
  | result (ok err : Option TypeRef)
  /-- Several values. -/
  | tuple (items : List TypeRef)
  /-- A value that arrives later. -/
  | future (element : Option TypeRef)
  /-- Values that arrive one by one. -/
  | stream (element : Option TypeRef)
  deriving DecidableEq, Repr

namespace TypeKind

/-- What a kind is called in messages. -/
def label : TypeKind → String
  | record _ => "record"
  | variant _ => "variant"
  | enumeration _ => "enum"
  | flags _ => "flags"
  | resource => "resource"
  | handle _ _ => "handle"
  | aliasOf _ => "alias"
  | list _ => "list"
  | option _ => "option"
  | result _ _ => "result"
  | tuple _ => "tuple"
  | future _ => "future"
  | stream _ => "stream"

/-- The types that a type is made of, in the order in which they are
written. The resource behind a handle is not among them. -/
def parts : TypeKind → List TypeRef
  | record fields => fields.map Field.type
  | variant cases => cases.filterMap Case.payload
  | aliasOf target => [target]
  | list element => [element]
  | option element => [element]
  | result ok err => ok.toList ++ err.toList
  | tuple items => items
  | future element => element.toList
  | stream element => element.toList
  | enumeration _ | flags _ | resource | handle _ _ => []

end TypeKind

/-- An entry of the type arena. -/
structure TypeDef where
  /-- Its position in the arena. -/
  id : Int
  /-- The name under which it is declared; inline composites have none. -/
  name : Option String
  /-- What it is made of. -/
  kind : TypeKind
  /-- Where it is declared. -/
  owner : Option TypeOwner
  /-- Its documentation comment. -/
  docs : Option String
  deriving DecidableEq, Repr

/-- How a function is attached to the interface or world that lists it. -/
inductive Attachment where
  /-- A function of its own. -/
  | freestanding
  /-- A function of the values of a resource. -/
  | method (resource : Int)
  /-- A function of a resource itself. -/
  | static (resource : Int)
  /-- A function that makes a value of a resource. -/
  | constructor (resource : Int)
  deriving DecidableEq, Repr

/-- The resource that a function belongs to. -/
def Attachment.resource? : Attachment → Option Int
  | freestanding => none
  | method resource | static resource | constructor resource => some resource

/-- A parameter of a function. -/
structure Param where
  /-- Its name. -/
  name : String
  /-- Its type. -/
  type : TypeRef
  deriving DecidableEq, Repr

/-- The signature of a function. -/
structure Function where
  /-- Its name, without the mark of its attachment. -/
  name : String
  /-- How it is attached. -/
  attachment : Attachment
  /-- Its parameters, in order. -/
  params : List Param
  /-- The types of its results, in order. -/
  results : List TypeRef
  /-- Its documentation comment. -/
  docs : Option String
  deriving DecidableEq, Repr

/-- Whether a function stands on its own. -/
def Function.isFreestanding (f : Function) : Bool := f.attachment = .freestanding

/-- A group of types and functions. -/
structure Interface where
  /-- Its position in the arena. -/
  id : Int
  /-- Its name; an interface that a world writes inline has none. -/
  name : Option String
  /-- The package that it belongs to. -/
  package : Option Int
  /-- Its types by name, in order. -/
  types : List (Scalar × Int)
  /-- Its functions by key, in order. -/
  functions : List (Scalar × Function)
  /-- Its documentation comment. -/
  docs : Option String
  deriving DecidableEq, Repr

/-- The name of an interface, an empty one being none. -/
def Interface.givenName (i : Interface) : Option String := i.name.filter (· ≠ "")

/-- What an import or export of a world refers to. -/
inductive WorldItem where
  /-- An interface. -/
  | interface (id : Int)
  /-- A function of the world itself. -/
  | function (function : Function)
  /-- A type of the world itself. -/
  | type (id : Int)
  deriving DecidableEq, Repr

/-- A bundle of imports and exports. -/
structure World where
  /-- Its position in the arena. -/
  id : Int
  /-- Its name. -/
  name : String
  /-- The package that it belongs to. -/
  package : Option Int
  /-- What the host supplies, by key, in order. -/
  imports : List (Scalar × WorldItem)
  /-- What the guest implements, by key, in order. -/
  exports : List (Scalar × WorldItem)
  /-- Its documentation comment. -/
  docs : Option String
  deriving DecidableEq, Repr

/-- The items of a world in one direction. -/
def World.items (w : World) : Direction → List (Scalar × WorldItem)
  | .imported => w.imports
  | .exported => w.exports

/-- A package with its interfaces and worlds. -/
structure Package where
  /-- Its position in the arena. -/
  id : Int
  /-- Its name. -/
  name : PackageName
  /-- Its interfaces by name, in order. -/
  interfaces : List (Scalar × Int)
  /-- Its worlds by name, in order. -/
  worlds : List (Scalar × Int)
  /-- Its documentation comment. -/
  docs : Option String
  deriving DecidableEq, Repr

/-- **A resolved graph.** -/
structure Graph where
  /-- The packages. -/
  packages : List Package
  /-- The interfaces. -/
  interfaces : List Interface
  /-- The types. -/
  types : List TypeDef
  /-- The worlds. -/
  worlds : List World
  deriving DecidableEq, Repr

/-- The entry of an arena with a given id. -/
def entryAt {α : Type} (arena : List α) (id : Int) : Option α :=
  if 0 ≤ id then arena[id.toNat]? else none

namespace Graph

/-- The type definition with a given id. -/
def typeDef (g : Graph) (id : Int) : Except Fault TypeDef :=
  (entryAt g.types id).elim (.error (.dangling .types id none)) .ok

/-- The interface with a given id. -/
def interface (g : Graph) (id : Int) : Except Fault Interface :=
  (entryAt g.interfaces id).elim (.error (.dangling .interfaces id none)) .ok

/-- The package with a given id. -/
def package (g : Graph) (id : Int) : Except Fault Package :=
  (entryAt g.packages id).elim (.error (.dangling .packages id none)) .ok

/-- The world with a given id. -/
def world (g : Graph) (id : Int) : Except Fault World :=
  (entryAt g.worlds id).elim (.error (.dangling .worlds id none)) .ok

/-- The name of the package that an interface belongs to. -/
def packageNameOf (g : Graph) (interfaceId : Int) : Except Fault (Option PackageName) := do
  let i ← g.interface interfaceId
  match i.package with
  | none => pure none
  | some id => return some (← g.package id).name

/-- **The identity of an interface at run time.** An interface with a name
in a package is identified by both. One without a package is identified by
its name, and one without a name by the key under which a world lists it. -/
def identityOf (g : Graph) (interfaceId : Int) (key : Option Scalar) : Except Fault Scalar := do
  let i ← g.interface interfaceId
  let package ← g.packageNameOf interfaceId
  match i.givenName, package with
  | some name, some package => pure (.text (package.identity name))
  | some name, none => pure (.text name)
  | none, _ => (key.filter (· ≠ .null)).elim (.error (.unnamedInterface interfaceId)) .ok

/-- The functions that the owner of a type lists, in order. -/
def ownerFunctions (g : Graph) : TypeOwner → Except Fault (List Function)
  | .interface id => do return (← g.interface id).functions.map Prod.snd
  | .world id => do
    let w ← g.world id
    return (w.imports ++ w.exports).filterMap fun
      | (_, .function f) => some f
      | _ => none

/-- The constructors, methods and static functions of a resource, in the
order in which its owner lists them. -/
def resourceFunctions (g : Graph) (resourceId : Int) : Except Fault (List Function) := do
  match (← g.typeDef resourceId).owner with
  | none => pure []
  | some owner =>
    return (← g.ownerFunctions owner).filter (·.attachment.resource? = some resourceId)

end Graph

end ComponentBindings
