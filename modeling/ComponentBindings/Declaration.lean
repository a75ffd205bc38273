import ComponentBindings.Location
import ComponentBindings.Source.CodeBlock
import ComponentBindings.Source.DocComment
import ComponentBindings.TypeExpr.Spelling

/-!
# Declarations

What a module declares, as data: the identifiers that have been derived for
a type or a function and for its members, the type expressions between them,
and the names of the interface definition where an annotation repeats them.
`TypeDeclaration.text` and `FreeFunction.text` write a declaration down; no
decision is left to them but the wording.
-/

namespace ComponentBindings

/-- An identifier with its type: a field of a record or a parameter. -/
structure Parameter where
  /-- The identifier. -/
  name : String
  /-- Its type. -/
  type : TypeExpr
  deriving Repr

/-- An identifier with its type, as texts. -/
def Parameter.texts (p : Parameter) : String × String := (p.name, p.type.text)

/-- A function as it is declared. -/
structure Signature where
  /-- The name in the interface definition. -/
  raw : String
  /-- The identifier. -/
  name : String
  /-- The parameters, in order. -/
  params : List Parameter
  /-- The type of the result. -/
  result : TypeExpr
  /-- The documentation. -/
  docs : Option String
  deriving Repr

/-- A signature whose body the runtime supplies, as a text. -/
def Signature.native (s : Signature) : String :=
  renderNative s.name (s.params.map Parameter.texts) s.result.text

/-- How the bits of a flags type are stored. -/
structure Storage where
  /-- How many flags there is room for. -/
  bits : Nat
  /-- The integer type. -/
  type : String
  /-- The integer with the lowest bit set. -/
  one : String
  /-- What makes the result of an operation a value of the type again. -/
  narrow : String
  deriving DecidableEq, Repr

/-- The ways to store flags, from the narrowest to the widest. -/
def Storage.all : List Storage :=
  [⟨8, "Byte", "1", ".toByte"⟩, ⟨16, "Short", "1", ".toShort"⟩, ⟨32, "Int", "1", ""⟩,
   ⟨64, "Long", "1L", ""⟩]

/-- The narrowest storage with room for a number of flags. -/
def Storage.ofCount (name : String) (count : Nat) : Except Fault Storage :=
  match Storage.all.find? (count ≤ ·.bits) with
  | some storage => .ok storage
  | none => .error (.tooManyFlags name count)

/-- A case of a declared variant. -/
structure CaseDeclaration where
  /-- The identifier. -/
  name : String
  /-- The type of what the case carries. -/
  payload : Option TypeExpr
  deriving Repr

/-- What the companion of a resource declares. -/
inductive CompanionMember where
  /-- A constructor. -/
  | constructor (params : List Parameter) (docs : Option String)
  /-- A static function. -/
  | static (signature : Signature)
  deriving Repr

/-- The content of a declared type. -/
inductive TypeBody where
  /-- A record with its fields. -/
  | record (fields : List Parameter)
  /-- A variant with its cases. -/
  | variant (cases : List CaseDeclaration)
  /-- Flags, and how they are stored. -/
  | flags (storage : Storage) (names : List String)
  /-- Another name for a type expression. -/
  | aliasOf (target : TypeExpr)
  /-- A resource of an interface: its name in the interface definition, its
  methods, and what stands in its companion. -/
  | resource (identity : Argument) (raw : String) (methods : List Signature)
      (companion : List CompanionMember)
  deriving Repr

/-- **A declared type.** -/
structure TypeDeclaration where
  /-- The type definition that is declared. -/
  id : Int
  /-- Its identifier. -/
  name : String
  /-- Its documentation. -/
  docs : Option String
  /-- Its content. -/
  body : TypeBody
  deriving Repr

/-- Whether a resource is declared. -/
def TypeDeclaration.isResource (d : TypeDeclaration) : Bool :=
  match d.body with
  | .resource .. => true
  | _ => false

/-- The case of a variant, inside the companion of the variant. -/
def CaseDeclaration.line (variant : String) (c : CaseDeclaration) : String :=
  match c.payload with
  | none => "case object " ++ c.name ++ " extends " ++ variant
  | some payload =>
    "final case class " ++ c.name ++ "(value: " ++ payload.text ++ ") extends " ++ variant

/-- An expression over the bits of flags as a value of the flags type. -/
def Storage.wrap (storage : Storage) (name expression : String) : String :=
  if storage.narrow = "" then name ++ "(" ++ expression ++ ")"
  else name ++ "((" ++ expression ++ ")" ++ storage.narrow ++ ")"

/-- The operations on the values of a flags type. -/
def Storage.operations (storage : Storage) (name : String) : List CodeStep :=
  ["|", "&", "^"].map (fun op => .line ("def " ++ op ++ "(other: " ++ name ++ "): " ++ name ++
    " = " ++ storage.wrap name ("value " ++ op ++ " other.value"))) ++
  [.line ("def unary_~ : " ++ name ++ " = " ++ storage.wrap name "~value"),
   .line ("def contains(other: " ++ name ++ "): Boolean = (value & other.value) == other.value")]

/-- The constants of a flags type, one bit after the other. -/
def Storage.constants (storage : Storage) (name : String) (flags : List String) : List CodeStep :=
  flags.zipIdx.map fun (flag, bit) =>
    .line ("val " ++ flag ++ " = " ++
      storage.wrap name (storage.one ++ " << " ++ toString bit))

/-- A method inside the trait of its resource. -/
def Signature.methodText (s : Signature) : String :=
  docComment s.docs ++ (Marker.resourceMethod s.raw).render ++ "\n" ++ s.native

/-- The operation that disposes of a handle. -/
def dropText : String :=
  Marker.resourceDrop.render ++ "\n" ++ renderNative "close" [] unitSpelling

/-- The members of the trait of a resource: its methods, and the operation that disposes of a
handle. -/
def traitMembers (methods : List Signature) : List String :=
  methods.map Signature.methodText ++ [dropText]

/-- A constructor or a static function inside the companion of its resource. -/
def CompanionMember.text (resource : String) : CompanionMember → String
  | .constructor params docs =>
    docComment docs ++ Marker.resourceConstructor.render ++ "\n" ++
      renderNative "apply" (params.map Parameter.texts) resource
  | .static s => docComment s.docs ++ (Marker.resourceStatic s.raw).render ++ "\n" ++ s.native

/-- A container with members between its braces. -/
def container (opener : String) (members : List CodeStep) : List CodeStep :=
  [.line (opener ++ " \x7b"), .indented members, .line "\x7d"]

/-- **A declared type as a text.** -/
def TypeDeclaration.text (d : TypeDeclaration) : String :=
  let comment := docComment d.docs
  match d.body with
  | .record fields =>
    comment ++ Marker.record.render ++ "\n" ++
      "final case class " ++ d.name ++ "(" ++ renderParams (fields.map Parameter.texts) ++ ")"
  | .variant cases =>
    CodeStep.render ([.lines comment, .line Marker.variant.render,
        .line ("sealed trait " ++ d.name)] ++
      container ("object " ++ d.name) (cases.map fun c => .line (c.line d.name)))
  | .flags storage names =>
    CodeStep.render ([.lines comment, .line (Marker.flags (.number names.length)).render] ++
      container ("final case class " ++ d.name ++ "(value: " ++ storage.type ++ ")")
        (storage.operations d.name) ++
      container ("object " ++ d.name) (storage.constants d.name names))
  | .aliasOf target => comment ++ "type " ++ d.name ++ " = " ++ target.text
  | .resource identity raw methods companion =>
    CodeStep.render ([.lines comment, .line (Marker.importedResource identity raw).render] ++
      container ("trait " ++ d.name) ((traitMembers methods).map .lines) ++
      container ("object " ++ d.name) (companion.map fun m => .lines (m.text d.name)))

/-- **A function that belongs to no resource**, as a module declares it. -/
structure FreeFunction where
  /-- Whether the host supplies it or the guest implements it. -/
  direction : Direction
  /-- The identity of the interface or world that lists it. -/
  identity : Argument
  /-- Its signature. -/
  signature : Signature
  deriving Repr

/-- A function of its own as a text, which ends with a line feed. -/
def FreeFunction.text (f : FreeFunction) : String :=
  let s := f.signature
  let params := s.params.map Parameter.texts
  match f.direction with
  | .imported =>
    renderImported f.identity s.raw s.name params s.result.text (docComment s.docs)
  | .exported =>
    renderExported f.identity s.raw s.name params s.result.text (docComment s.docs)

end ComponentBindings
