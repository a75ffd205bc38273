import ComponentBindings.Graph.Basic

/-!
# Shapes of types

Two type ids that spell the same composite are to be rendered once. What they
have in common is their **shape**: primitives, names and handles at the
leaves, and inline composites above them. A type with a name is a leaf and is
never looked into, so a record that refers to itself has a finite shape, and
only a cycle of inline composites has none.

`Graph.shapeOf` finds the shape of a reference. It carries the ids that may
still be entered: all at first, and below a composite all but those on the
way to it. To meet one that was taken out is to go in a circle, and because
each step takes one out the search ends.
-/

namespace ComponentBindings

/-- **The shape of a type.** -/
inductive Shape where
  /-- No type, where an arm of a result carries nothing. -/
  | unit
  /-- A primitive. -/
  | primitive (p : Primitive)
  /-- A type with a name. -/
  | named (id : Int)
  /-- A handle on a resource. -/
  | handle (resource : Int)
  /-- A list. -/
  | list (element : Shape)
  /-- A value that may be absent. -/
  | option (element : Shape)
  /-- Another way to write a type. -/
  | aliasOf (target : Shape)
  /-- A result. -/
  | result (ok err : Shape)
  /-- A tuple. -/
  | tuple (items : List Shape)
  deriving Repr

namespace Shape

mutual

/-- Whether two shapes are the same. -/
def same : Shape → Shape → Bool
  | unit, unit => true
  | primitive p, primitive q => p = q
  | named a, named b => a = b
  | handle a, handle b => a = b
  | list s, list t => same s t
  | option s, option t => same s t
  | aliasOf s, aliasOf t => same s t
  | result s s', result t t' => same s t && same s' t'
  | tuple ss, tuple ts => sameItems ss ts
  | _, _ => false

/-- Whether two lists hold the same shapes in the same order. -/
def sameItems : List Shape → List Shape → Bool
  | [], [] => true
  | s :: ss, t :: ts => same s t && sameItems ss ts
  | _, _ => false

end

mutual

/-- Shapes are compared part by part. -/
theorem same_iff : (s t : Shape) → (s.same t = true ↔ s = t)
  | unit, t => by cases t <;> simp [same]
  | primitive p, t => by cases t <;> simp [same]
  | named a, t => by cases t <;> simp [same]
  | handle a, t => by cases t <;> simp [same]
  | list s, t => by cases t <;> simp [same, same_iff s]
  | option s, t => by cases t <;> simp [same, same_iff s]
  | aliasOf s, t => by cases t <;> simp [same, same_iff s]
  | result s s', t => by cases t <;> simp [same, same_iff s, same_iff s']
  | tuple ss, t => by cases t <;> simp [same, sameItems_iff ss]

/-- Lists of shapes are compared shape by shape. -/
theorem sameItems_iff : (ss ts : List Shape) → (sameItems ss ts = true ↔ ss = ts)
  | [], ts => by cases ts <;> simp [sameItems]
  | s :: ss, ts => by cases ts <;> simp [sameItems, same_iff s, sameItems_iff ss]

end

instance : DecidableEq Shape := fun s t => decidable_of_iff _ (same_iff s t)

mutual

/-- Whether the text of a shape depends on the module it is written in, as
that of a name does. -/
def isScoped : Shape → Bool
  | unit | primitive _ => false
  | named _ | handle _ => true
  | list s | option s | aliasOf s => s.isScoped
  | result s t => s.isScoped || t.isScoped
  | tuple ss => anyScoped ss

/-- Whether the text of one of several shapes depends on the module. -/
def anyScoped : List Shape → Bool
  | [] => false
  | s :: ss => s.isScoped || anyScoped ss

end

end Shape

namespace Graph

mutual

/-- The shape of a type reference below composites that leave the `enterable` ids
to be entered. -/
def shapeWithin (g : Graph) (enterable : List Int) : TypeRef → Except Fault Shape
  | .primitive p => .ok (.primitive p)
  | .defined id => do
    let t ← g.typeDef id
    if t.name.isSome then return .named id
    if _h : id ∈ enterable then
      match t.kind with
      | .list element => return .list (← g.shapeWithin (enterable.erase id) element)
      | .option element => return .option (← g.shapeWithin (enterable.erase id) element)
      | .aliasOf target => return .aliasOf (← g.shapeWithin (enterable.erase id) target)
      | .result ok err =>
        let ok ← g.armWithin (enterable.erase id) ok
        let err ← g.armWithin (enterable.erase id) err
        return .result ok err
      | .tuple items => return .tuple (← g.shapesWithin (enterable.erase id) items)
      | .handle resource _ => return .handle resource
      | .future _ => throw (.unsupportedKind t.kind.label s!"type {id}")
      | .stream _ => throw (.unsupportedKind t.kind.label s!"type {id}")
      | kind => throw (.unnamedDeclaration kind.label id)
    else throw (.selfReference id)
  termination_by (enterable.length, 0)
  decreasing_by all_goals
    have := List.length_erase_of_mem _h
    have := List.length_pos_of_mem _h
    exact Prod.Lex.left _ _ (by omega)

/-- The shape of an arm of a result. -/
def armWithin (g : Graph) (enterable : List Int) : Option TypeRef → Except Fault Shape
  | none => .ok .unit
  | some ref => g.shapeWithin enterable ref
  termination_by (enterable.length, 1)

/-- The shapes of several type references. -/
def shapesWithin (g : Graph) (enterable : List Int) : List TypeRef → Except Fault (List Shape)
  | [] => .ok []
  | ref :: rest => do
    let shape ← g.shapeWithin enterable ref
    let shapes ← g.shapesWithin enterable rest
    return shape :: shapes
  termination_by refs => (enterable.length, refs.length + 1)

end

/-- The ids of the types. -/
def typeIds (g : Graph) : List Int := (List.range g.types.length).map Int.ofNat

/-- **The shape of a type reference.** -/
def shapeOf (g : Graph) (ref : TypeRef) : Except Fault Shape := g.shapeWithin g.typeIds ref

/-- The shape of a type reference that may be absent. -/
def shapeOfOptional (g : Graph) (ref : Option TypeRef) : Except Fault Shape :=
  g.armWithin g.typeIds ref

end Graph

end ComponentBindings
