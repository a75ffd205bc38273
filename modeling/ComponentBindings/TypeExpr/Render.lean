import ComponentBindings.Session
import ComponentBindings.TypeExpr.Spelling

/-!
# Rendering types

A type with a name is written by reference: its plain name in the module that
declares it, and its full name elsewhere. Inline composites are written out,
part by part, and what has been written is remembered by its shape, so that
the same composite is built once no matter how many ids spell it.
-/

namespace ComponentBindings

/-- The identifier under which a type is declared. -/
def TypeDef.identifier (t : TypeDef) : Except Fault String :=
  match t.name with
  | some name => identifierOf .type name
  | none => .error (.unnamedType t.id)

/-- **What type expressions are written with**: the graph that gives types
their meaning, the module that declares the types of an owner, and the module
that is being written, if any. -/
structure Renderer where
  /-- The graph. -/
  graph : Graph
  /-- The module that declares the types of an interface or world. -/
  locate : TypeOwner → Emission Location
  /-- The module that is being written. -/
  scope : Option Location := none

namespace Renderer

/-- A reference to a named type that is made anew: its plain name in the
module that declares it, and its full name elsewhere. -/
def newReference (r : Renderer) (t : TypeDef) : Emission String := do
  let name ← Emission.ofExcept t.identifier
  match t.owner with
  | none => return name
  | some owner =>
    let location ← r.locate owner
    return if some location = r.scope then name else location.memberPath name

/-- A reference to a named type from the module that is being written. -/
def reference (r : Renderer) (t : TypeDef) : Emission String := do
  match (← get).references.lookup (t.id, r.scope) with
  | some text => return text
  | none =>
    let text ← r.newReference t
    modify fun s => { s with references := s.references ++ [((t.id, r.scope), text)] }
    return text

/-- The text of an inline composite, which is built where it is not known. -/
def remembered (r : Renderer) (shape : Shape) (build : Emission String) : Emission String := do
  let key := (if shape.isScoped then r.scope else none, shape)
  match (← get).instantiations.lookup key with
  | some text => return text
  | none =>
    let text ← build
    modify fun s => { s with instantiations := s.instantiations ++ [(key, text)] }
    return text

/-- A reference to the named type with a given id. -/
def referenceTo (r : Renderer) (id : Int) : Emission String := do
  r.reference (← Emission.ofExcept (r.graph.typeDef id))

mutual

/-- The text of a shape. -/
def renderShape (r : Renderer) : Shape → Emission String
  | .unit => pure unitSpelling
  | .primitive p => pure p.spelling
  | .named id => r.referenceTo id
  | .handle resource => r.remembered (.handle resource) (r.referenceTo resource)
  | .list element => r.remembered (.list element) do
    return listSpelling (← r.renderShape element)
  | .option element => r.remembered (.option element) do
    return optionSpelling (← r.renderShape element)
  | .aliasOf target => r.remembered (.aliasOf target) (r.renderShape target)
  | .result ok err => r.remembered (.result ok err) do
    let ok ← r.renderShape ok
    let err ← r.renderShape err
    return resultSpelling ok err
  | .tuple items => r.remembered (.tuple items) do
    return tupleSpelling (← r.renderShapes items)

/-- The texts of several shapes. -/
def renderShapes (r : Renderer) : List Shape → Emission (List String)
  | [] => pure []
  | shape :: rest => do
    let text ← r.renderShape shape
    let texts ← r.renderShapes rest
    return text :: texts

end

/-- **A type reference as a type expression.** A handle without a name is
written as its resource. -/
def render (r : Renderer) (ref : TypeRef) : Emission TypeExpr := do
  let shape ← Emission.ofExcept (r.graph.shapeOf ref)
  return ⟨shape, ← r.renderShape shape⟩

/-- A type reference that may be absent, as an arm of a result. -/
def renderOptional (r : Renderer) : Option TypeRef → Emission TypeExpr
  | none => pure ⟨.unit, unitSpelling⟩
  | some ref => r.render ref

/-- Several type references as a tuple. -/
def renderTuple (r : Renderer) (items : List TypeRef) : Emission TypeExpr := do
  let items ← items.mapM r.render
  return ⟨.tuple (items.map TypeExpr.shape), tupleSpelling (items.map TypeExpr.text)⟩

/-- The results of a function: nothing, one type, or a tuple. -/
def renderResults (r : Renderer) : List TypeRef → Emission TypeExpr
  | [result] => r.render result
  | results => r.renderTuple results

/-- **What a named composite stands for**, written out one level deep. -/
def expand (r : Renderer) (t : TypeDef) : Emission TypeExpr := do
  match t.kind with
  | .list element =>
    let element ← r.render element
    return ⟨.list element.shape, listSpelling element.text⟩
  | .option element =>
    let element ← r.render element
    return ⟨.option element.shape, optionSpelling element.text⟩
  | .result ok err =>
    let ok ← r.renderOptional ok
    let err ← r.renderOptional err
    return ⟨.result ok.shape err.shape, resultSpelling ok.text err.text⟩
  | .tuple items => r.renderTuple items
  | .handle resource _ =>
    return ⟨.handle resource, ← r.referenceTo resource⟩
  | .aliasOf target =>
    let target ← r.render target
    return ⟨.aliasOf target.shape, target.text⟩
  | _ => throw (.notComposite t.id)

end Renderer

end ComponentBindings
