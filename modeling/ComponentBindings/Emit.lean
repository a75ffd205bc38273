import ComponentBindings.TypeExpr.Render

/-!
# Emitting declarations

From the definition of a type or a function to its declaration. Emitting
derives the identifiers of the item and its members, claims each in the scope
it belongs to, and renders the types between them, from left to right.

The members of a module are claimed in the scope of the module, which is the
path of its file. The members of a declaration are claimed in a scope below
it: the fields of a record or the cases of a variant under the identifier of
the type, the parameters of a function under its identifier followed by
`()`, and the companion of a resource under its identifier followed by `$`.
Names that the declaration brings along by itself are claimed like the
others, so that no member can take them.
-/

namespace ComponentBindings

/-- **The place that a declaration is emitted into.** -/
structure Site where
  /-- Whether the module holds imports or exports. -/
  direction : Direction
  /-- The identity that markers give the owner of the item. -/
  identity : Scalar
  /-- The scope in which the members of the module are claimed. -/
  scope : String

/-- The scope of the members of a declaration. -/
def Site.memberScope (site : Site) (identifier : String) : String :=
  site.scope ++ "." ++ unescape identifier

/-- The scope of the parameters of a function. -/
def parameterScope (scope identifier : String) : String :=
  scope ++ "." ++ unescape identifier ++ "()"

/-- The identity of the items that belong to the world itself. -/
def worldIdentity : Scalar := .text "$root"

/-- The identity as an argument of a marker. An interface without a name is
identified by a key of the world, and a key that is no text, integer or truth
value cannot be an argument. -/
def Site.argument (site : Site) : Except Fault Argument :=
  match site.identity with
  | .text value => .ok (.text value)
  | .int value => .ok (.number value)
  | .bool value => .ok (.truth value)
  | other => .error (.notText other)

namespace Renderer

/-- An identifier with its type, claimed in a scope. -/
def member (r : Renderer) (scope raw : String) (type : TypeRef) : Emission Parameter := do
  let name ← Emission.ofNaming (declare .member raw scope)
  return ⟨name, ← r.render type⟩

/-- The parameters of a function. -/
def params (r : Renderer) (scope : String) (ps : List Param) : Emission (List Parameter) :=
  ps.mapM fun p => r.member scope p.name p.type

/-- The signature of a function whose identifier is claimed in a scope. -/
def signature (r : Renderer) (scope : String) (f : Function) (ps : List Param) :
    Emission Signature := do
  let name ← Emission.ofNaming (declare .member f.name scope)
  let params ← r.params (parameterScope scope name) ps
  let result ← r.renderResults f.results
  return { raw := f.name, name, params, result, docs := f.docs }

/-- The record with given fields. -/
def emitRecord (r : Renderer) (scope : String) (fields : List Field) : Emission TypeBody :=
  .record <$> fields.mapM fun f => r.member scope f.name f.type

/-- The variant with given cases. -/
def emitVariant (r : Renderer) (scope : String) (cases : List Case) : Emission TypeBody :=
  .variant <$> cases.mapM fun c => do
    let name ← Emission.ofNaming (declare .type c.name scope)
    match c.payload with
    | none => return ⟨name, none⟩
    | some payload => return ⟨name, some (← r.render payload)⟩

/-- The variant with given cases that carry nothing. -/
def emitEnumeration (scope : String) (labels : List Label) : Emission TypeBody :=
  .variant <$> labels.mapM fun l => do
    return ⟨← Emission.ofNaming (declare .type l.name scope), none⟩

/-- The flags with given names. The companion of the case class has two
members of its own. -/
def emitFlags (scope : String) (storage : Storage) (names : List String) : Emission TypeBody := do
  Emission.ofNaming (claim scope "apply" "<apply>")
  Emission.ofNaming (claim scope "unapply" "<unapply>")
  .flags storage <$> names.mapM fun name => Emission.ofNaming (declare .member name scope)

/-- The parameters of a method, without the value that it is a method of. -/
def withoutReceiver : List Param → List Param
  | [] => []
  | p :: rest => if p.name = "self" then rest else p :: rest

/-- The methods of a resource among its functions. -/
def emitMethods (r : Renderer) (scope : String) (functions : List Function) :
    Emission (List Signature) :=
  functions.filterMapM fun f => do
    match f.attachment with
    | .method _ => some <$> r.signature scope f (withoutReceiver f.params)
    | _ => return none

/-- The constructors and static functions of a resource among its functions.
All constructors are called alike, so the parameters of one are told apart
from those of another by its position. -/
def emitCompanion (r : Renderer) (scope : String) (functions : List Function) :
    Emission (List CompanionMember) :=
  functions.zipIdx.filterMapM fun (f, position) => do
    match f.attachment with
    | .constructor _ =>
      Emission.ofNaming (claim scope "apply" "<constructor>")
      let params ← r.params (scope ++ ".apply(" ++ toString position ++ ")") f.params
      return some (.constructor params f.docs)
    | .static _ => return some (.static (← r.signature scope f f.params))
    | _ => return none

/-- **A resource**: the trait of its handles and their companion. The guest
cannot implement one. -/
def emitResource (r : Renderer) (site : Site) (t : TypeDef) : Emission TypeDeclaration := do
  if site.direction = .exported then throw (.exportedResource site.identity.shown t.name)
  let some raw := t.name | throw (.undeclarable t.id)
  let name ← Emission.ofNaming (declare .type raw site.scope)
  let scope := site.memberScope name
  Emission.ofNaming (claim scope "close" "<drop>")
  let functions ← Emission.ofExcept (r.graph.resourceFunctions t.id)
  let identity ← Emission.ofExcept site.argument
  let methods ← r.emitMethods scope functions
  let companion ← r.emitCompanion (scope ++ "$") functions
  return { id := t.id, name, docs := t.docs, body := .resource identity raw methods companion }

/-- **The declaration of a type with a name.** -/
def emitType (r : Renderer) (site : Site) (t : TypeDef) : Emission TypeDeclaration := do
  let some raw := t.name | throw (.undeclarable t.id)
  let declared (body : String → Emission TypeBody) : Emission TypeDeclaration := do
    let name ← Emission.ofNaming (declare .type raw site.scope)
    return { id := t.id, name, docs := t.docs, body := ← body name }
  match t.kind with
  | .record fields => declared fun name => r.emitRecord (site.memberScope name) fields
  | .variant cases => declared fun name => r.emitVariant (site.memberScope name) cases
  | .enumeration labels => declared fun name => emitEnumeration (site.memberScope name) labels
  | .flags names =>
    let storage ← Emission.ofExcept (Storage.ofCount raw names.length)
    declared fun name => emitFlags (site.memberScope name) storage names
  | .resource => r.emitResource site t
  | .aliasOf _ | .list _ | .option _ | .result _ _ | .tuple _ | .handle _ _ =>
    declared fun _ => .aliasOf <$> r.expand t
  | .future _ | .stream _ => throw (.unsupportedKind t.kind.label raw)

/-- **The declaration of a function that belongs to no resource.** -/
def emitFunction (r : Renderer) (site : Site) (f : Function) : Emission FreeFunction := do
  let signature ← r.signature site.scope f f.params
  let identity ← Emission.ofExcept site.argument
  return { direction := site.direction, identity, signature }

end Renderer

end ComponentBindings
