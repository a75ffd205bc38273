import ComponentBindings.Graph.Closed

/-!
# Reading a graph from a document

The document of a graph has the four lists `packages`, `interfaces`, `types`
and `worlds`, each of which may be left out. `Graph.ofDocument` reads them in
this order, and within an entry reads member after member, so that of two
mistakes the one that comes first in this order is reported. A graph that has
been read is checked to be closed.

Some things can be written in more than one way: the primitives `f32` and
`f64` have older names, documentation stands by itself or in an object, a
flag is a text or an object with a name, an interface item is an id or an
object with one, and the only result of a function may stand in `result`
in place of a list in `results`.
-/

namespace ComponentBindings

open Document (member member?)

/-- A departure from the schema in a named place. -/
def misplaced {α : Type} (context : String) (what : Malformation) : Except Fault α :=
  .error (.malformed what context)

namespace Document

/-- The list in a member of an object; a missing member is an empty list. -/
def listMember (key : String) (value : Document) : Except Fault (List Document) :=
  match value.bare with
  | .object members =>
    match (member members key).bare with
    | .null => .ok []
    | .list items => .ok items
    | _ => .error (.malformed (.notList key) none)
  | _ => .error (.malformed (.notObjectWith key value) none)

/-- The object in a member of an object; a missing member is empty. -/
def objectMember (members : List (Scalar × Document)) (key context : String) :
    Except Fault (List (Scalar × Document)) :=
  match (member members key).bare with
  | .null => .ok []
  | .object entries => .ok entries
  | _ => misplaced context (.memberNotObject key)

/-- The members of an object. -/
def members (context : String) (value : Document) : Except Fault (List (Scalar × Document)) :=
  match value.bare with
  | .object members => .ok members
  | _ => misplaced context .notObject

/-- The text in a member of an object, which may not be empty. -/
def textMember (members : List (Scalar × Document)) (key context : String) :
    Except Fault String :=
  match member members key with
  | .string text => if text = "" then misplaced context (.missingText key) else .ok text
  | _ => misplaced context (.missingText key)

/-- An id. -/
def id (context : String) : Document → Except Fault Int
  | .int value => .ok value
  | other => misplaced context (.notId other)

/-- An id that may be absent. -/
def optionalId (context : String) : Document → Except Fault (Option Int)
  | .null => .ok none
  | other => some <$> other.id context

/-- An object with one member. -/
def single (context : String) (value : Document) : Except Fault (Scalar × Document) :=
  match value.bare with
  | .object [entry] => .ok entry
  | _ => misplaced context (.notSingleMember value)

/-- The documentation comment of an entry. -/
def docs (members : List (Scalar × Document)) : Except Fault (Option String) :=
  let value := match (member members "docs").bare with
    | .object inner => member inner "contents"
    | other => other
  match value with
  | .null => .ok none
  | .string text => .ok (some text)
  | _ => .error (.malformed .docsNotText none)

/-- The parts of a value that is walked as a list. A text is walked by its code
points and an object by the names of its members; of the other values only
those that count as empty can be walked. -/
def enumerate (value : Document) : Except Fault (List Document) :=
  match value.bare with
  | .list items => .ok items
  | .object members => .ok (members.map fun (name, _) => .scalar name)
  | .string text =>
    .ok ((Text.codePoints text.toList).map fun p => .string (Text.ofCodePoints [p]))
  | other => if other.isEmpty then .ok [] else .error .notEnumerable

end Document

/-- The primitive with a given name, `float32` and `float64` being older
names of two of them. -/
def Primitive.ofName? : String → Option Primitive
  | "bool" => some .bool
  | "s8" => some .s8
  | "u8" => some .u8
  | "s16" => some .s16
  | "u16" => some .u16
  | "s32" => some .s32
  | "u32" => some .u32
  | "s64" => some .s64
  | "u64" => some .u64
  | "f32" | "float32" => some .f32
  | "f64" | "float64" => some .f64
  | "char" => some .char
  | "string" => some .string
  | _ => none

/-- A reference to a type. -/
def TypeRef.ofDocument (context : String) : Document → Except Fault TypeRef
  | .string name =>
    match Primitive.ofName? name with
    | some p => .ok (.primitive p)
    | none => misplaced context (.unknownType name)
  | other => .defined <$> other.id context

/-- A reference to a type that may be absent. -/
def TypeRef.ofOptional (context : String) : Document → Except Fault (Option TypeRef)
  | .null => .ok none
  | other => some <$> TypeRef.ofDocument context other

/-- A package. -/
def Package.ofDocument (id : Nat) (value : Document) : Except Fault Package := do
  let context := s!"package {id}"
  let members ← value.members context
  let (name, interface) ← PackageName.parse (← Document.textMember members "name" context)
  if interface.isSome then misplaced context .packageNamesInterface
  let ids (key : String) : Except Fault (List (Scalar × Int)) := do
    (← Document.objectMember members key context).mapM fun (name, value) => do
      return (name, ← value.id context)
  let interfaces ← ids "interfaces"
  let worlds ← ids "worlds"
  return { id, name, interfaces, worlds, docs := ← Document.docs members }

/-- What follows a mark of attachment at the front of a function's name: all
but a line feed at the end, if it is not empty and on one line. -/
def Function.afterMark (cs : List Char) : Option (List Char) :=
  let text := if cs.getLast? = some '\n' then cs.dropLast else cs
  if text.isEmpty || text.contains '\n' then none else some text

/-- The name of a function without its mark: `[method]file.read` is plainly
`read`, and `[constructor]file`, which has nothing after a point, is `file`. -/
def Function.plainName (name : String) : String :=
  let marks := ["[method]", "[static]", "[constructor]"].map String.toList
  let cs := name.toList
  match marks.find? (·.isPrefixOf cs) with
  | none => name
  | some mark =>
    match afterMark (cs.drop mark.length) with
    | none => name
    | some rest =>
      match (rest.dropWhile (· ≠ '.')).drop 1 with
      | [] => String.ofList rest
      | plain => String.ofList plain

/-- How a function is attached. A kind that is not given is freestanding. -/
def Attachment.ofDocument (context : String) : Option Document → Except Fault Attachment
  | none | some (.string "freestanding") => .ok .freestanding
  | some other => do
    let (tag, value) ← other.single context
    match tag with
    | .text "method" => .method <$> value.id context
    | .text "static" => .static <$> value.id context
    | .text "constructor" => .constructor <$> value.id context
    | _ => misplaced context (.unknownFunctionKind tag)

/-- A parameter. -/
def Param.ofDocument (context : String) (value : Document) : Except Fault Param := do
  let members ← value.members context
  let name ← Document.textMember members "name" context
  return { name, type := ← TypeRef.ofDocument context (member members "type") }

/-- The type of a result, by itself or in an object. -/
def TypeRef.ofResult (context : String) (value : Document) : Except Fault TypeRef :=
  match value.bare with
  | .object members => TypeRef.ofDocument context (member members "type")
  | _ => TypeRef.ofDocument context value

/-- The types of the results of a function. -/
def Function.resultsOf (members : List (Scalar × Document)) (context : String) :
    Except Fault (List TypeRef) :=
  match member? members "result" with
  | some value => Option.toList <$> TypeRef.ofOptional context value
  | none => do (← (member members "results").enumerate).mapM (TypeRef.ofResult context)

/-- A function. -/
def Function.ofDocument (context : String) (value : Document) : Except Fault Function := do
  let members ← value.members context
  let name ← Document.textMember members "name" context
  let context := s!"{context}/{name}"
  let attachment ← Attachment.ofDocument context (member? members "kind")
  let params ← (← (member members "params").enumerate).mapM (Param.ofDocument context)
  let results ← Function.resultsOf members context
  let docs ← Document.docs members
  return { name := Function.plainName name, attachment, params, results, docs }

/-- A name that may be absent. -/
def nameOf (members : List (Scalar × Document)) (context : String) (what : Malformation) :
    Except Fault (Option String) :=
  match member members "name" with
  | .null => .ok none
  | .string name => .ok (some name)
  | _ => misplaced context what

/-- An interface. -/
def Interface.ofDocument (id : Nat) (value : Document) : Except Fault Interface := do
  let context := s!"interface {id}"
  let members ← value.members context
  let name ← nameOf members context .interfaceNameNotText
  let context := match name.filter (· ≠ "") with
    | some name => s!"interface {name}"
    | none => context
  let package ← (member members "package").optionalId context
  let types ← (← Document.objectMember members "types" context).mapM fun (name, value) => do
    return (name, ← value.id context)
  let functions ← (← Document.objectMember members "functions" context).mapM
    fun (key, value) => do return (key, ← Function.ofDocument context value)
  return { id, name, package, types, functions, docs := ← Document.docs members }

/-- The owner of a type. -/
def TypeOwner.ofDocument (context : String) : Document → Except Fault (Option TypeOwner)
  | .null => .ok none
  | other => do
    let (tag, value) ← other.single context
    match tag with
    | .text "interface" => return some (.interface (← value.id context))
    | .text "world" => return some (.world (← value.id context))
    | _ => misplaced context (.unknownOwner tag)

/-- A field of a record. -/
def Field.ofDocument (context : String) (value : Document) : Except Fault Field := do
  let members ← value.members context
  let name ← Document.textMember members "name" context
  let type ← TypeRef.ofDocument context (member members "type")
  return { name, type, docs := ← Document.docs members }

/-- A case of a variant. -/
def Case.ofDocument (context : String) (value : Document) : Except Fault Case := do
  let members ← value.members context
  let name ← Document.textMember members "name" context
  let payload ← TypeRef.ofOptional context (member members "type")
  return { name, payload, docs := ← Document.docs members }

/-- A case of an enumeration. -/
def Label.ofDocument (context : String) (value : Document) : Except Fault Label := do
  let members ← value.members context
  let name ← Document.textMember members "name" context
  return { name, docs := ← Document.docs members }

/-- The name of a flag, by itself or in an object. -/
def flagName (context : String) : Document → Except Fault String
  | .string name => .ok name
  | other => do Document.textMember (← other.members context) "name" context

/-- A handle that owns or borrows a resource. -/
def TypeKind.handleOf (context : String) (value : Document) : Except Fault TypeKind := do
  let (tag, target) ← value.single context
  match tag with
  | .text "own" => return .handle (← target.id context) false
  | .text "borrow" => return .handle (← target.id context) true
  | _ => misplaced context (.unknownHandle tag)

/-- A result with its two arms. -/
def TypeKind.resultOf (context : String) (value : Document) : Except Fault TypeKind :=
  match value.bare with
  | .object members => do
    let ok ← TypeRef.ofOptional context (member members "ok")
    let err ← TypeRef.ofOptional context (member members "err")
    return .result ok err
  | _ => misplaced context .resultNotObject

/-- The kind of a type, with what the type is made of. -/
def TypeKind.ofDocument (context : String) : Document → Except Fault TypeKind
  | .string "resource" => .ok .resource
  | other => do
    let (tag, body) ← other.single context
    match tag with
    | .text "record" =>
      return .record (← (← body.listMember "fields").mapM (Field.ofDocument context))
    | .text "variant" =>
      return .variant (← (← body.listMember "cases").mapM (Case.ofDocument context))
    | .text "enum" =>
      return .enumeration (← (← body.listMember "cases").mapM (Label.ofDocument context))
    | .text "flags" => return .flags (← (← body.listMember "flags").mapM (flagName context))
    | .text "handle" => TypeKind.handleOf context body
    | .text "type" => return .aliasOf (← TypeRef.ofDocument context body)
    | .text "list" => return .list (← TypeRef.ofDocument context body)
    | .text "option" => return .option (← TypeRef.ofDocument context body)
    | .text "future" => return .future (← TypeRef.ofOptional context body)
    | .text "stream" => return .stream (← TypeRef.ofOptional context body)
    | .text "result" => TypeKind.resultOf context body
    | .text "tuple" =>
      return .tuple (← (← body.listMember "types").mapM (TypeRef.ofDocument context))
    | _ => misplaced context (.unknownTypeKind tag)

/-- A type definition. -/
def TypeDef.ofDocument (id : Nat) (value : Document) : Except Fault TypeDef := do
  let context := s!"type {id}"
  let members ← value.members context
  let name ← nameOf members context .typeNameNotText
  let context := match name.filter (· ≠ "") with
    | some name => s!"type {name}"
    | none => context
  let owner ← TypeOwner.ofDocument context (member members "owner")
  let docs ← Document.docs members
  return { id, name, owner, docs, kind := ← TypeKind.ofDocument context (member members "kind") }

/-- The id of the interface that an item names, by itself or in an object. -/
def WorldItem.interfaceId (context : String) (value : Document) : Except Fault Int :=
  match value.bare with
  | .object members => (member members "id").id context
  | _ => value.id context

/-- An import or export of a world. -/
def WorldItem.ofDocument (context : String) (value : Document) : Except Fault WorldItem := do
  let (tag, body) ← value.single context
  match tag with
  | .text "interface" => return .interface (← WorldItem.interfaceId context body)
  | .text "function" => return .function (← Function.ofDocument context body)
  | .text "type" => return .type (← body.id context)
  | _ => misplaced context (.unknownWorldItem tag)

/-- A world. -/
def World.ofDocument (id : Nat) (value : Document) : Except Fault World := do
  let context := s!"world {id}"
  let members ← value.members context
  let name ← Document.textMember members "name" context
  let context := s!"world {name}"
  let package ← (member members "package").optionalId context
  let items (key : String) : Except Fault (List (Scalar × WorldItem)) := do
    (← Document.objectMember members key context).mapM fun (key, value) => do
      if !key.isShowable then throw (.unrepresentable .tooLongToShow)
      return (key, ← WorldItem.ofDocument (context ++ "/" ++ key.shown) value)
  let imports ← items "imports"
  let exports ← items "exports"
  return { id, name, package, imports, exports, docs := ← Document.docs members }

/-- The entries of one of the lists of a document, each read with its
position. -/
def Document.entries {α : Type} (document : Document) (key : String)
    (read : Nat → Document → Except Fault α) : Except Fault (List α) := do
  (← document.listMember key).zipIdx.mapM fun (value, position) => read position value

/-- The graph that an object describes, from the first list to the last. -/
def Graph.ofObject (document : Document) : Except Fault Graph := do
  let packages ← document.entries "packages" Package.ofDocument
  let interfaces ← document.entries "interfaces" Interface.ofDocument
  let types ← document.entries "types" TypeDef.ofDocument
  let worlds ← document.entries "worlds" World.ofDocument
  let graph : Graph := { packages, interfaces, types, worlds }
  graph.checkClosed
  return graph

/-- **The graph that a document describes.** -/
def Graph.ofDocument (document : Document) : Except Fault Graph :=
  match document.bare with
  | .object _ => (Graph.ofObject document).mapError Fault.reported
  | _ => .error (.malformed .documentNotObject none)

end ComponentBindings
