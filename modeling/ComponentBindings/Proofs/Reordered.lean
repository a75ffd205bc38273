import ComponentBindings.Proofs.Places
import ComponentBindings.Proofs.Shapes

/-!
# Graphs whose interfaces are written in another order

An interface lists its types and its functions, and nothing that a run looks
up depends on the order of these lists, save one thing: the functions of a
resource are emitted with it in the order in which they are listed. So two
interfaces are told to be the same but for the order (`Interface.Reordered`)
when they list the same types and functions and agree on the order of the
functions that belong to resources; of those that stand on their own, the
positions are free.

Graphs with such interfaces answer alike whatever is asked of them: the same
definitions have the same shapes, owners and resource functions, and
interfaces and worlds the same places. Hence an assignment over the one
graph writes types and functions just as the assignment over the other does
(`Assignment.renderer_withGraph`), and the lists themselves are read in one place
only, where a module is generated from an interface.
-/

namespace ComponentBindings

/-- **An interface that lists the same in another order.** The functions that
belong to resources stay in their order among themselves. -/
structure Interface.Reordered (i i' : Interface) : Prop where
  /-- The position in the arena. -/
  id : i'.id = i.id
  /-- The name. -/
  name : i'.name = i.name
  /-- The package. -/
  package : i'.package = i.package
  /-- The documentation comment. -/
  docs : i'.docs = i.docs
  /-- The types are the same. -/
  types : i'.types.Perm i.types
  /-- The functions are the same. -/
  functions : i'.functions.Perm i.functions
  /-- The functions that belong to resources stay in order. -/
  members : i'.functions.filter (!·.2.isFreestanding) = i.functions.filter (!·.2.isFreestanding)

/-- **A graph whose interfaces list the same in another order**, and that is
the same otherwise. -/
structure Graph.Reordered (g g' : Graph) : Prop where
  /-- The packages. -/
  packages : g'.packages = g.packages
  /-- The interfaces are reordered one by one. -/
  interfaces : List.Forall₂ Interface.Reordered g.interfaces g'.interfaces
  /-- The types. -/
  types : g'.types = g.types
  /-- The worlds. -/
  worlds : g'.worlds = g.worlds

namespace Interface.Reordered

variable {i i' : Interface}

/-- To be reordered is mutual. -/
protected theorem symm (h : i.Reordered i') : i'.Reordered i where
  id := h.id.symm
  name := h.name.symm
  package := h.package.symm
  docs := h.docs.symm
  types := h.types.symm
  functions := h.functions.symm
  members := h.members.symm

/-- The name that counts is the same. -/
theorem givenName (h : i.Reordered i') : i'.givenName = i.givenName := by
  rw [Interface.givenName, h.name, Interface.givenName]

/-- The functions of a resource are listed in the same order. -/
theorem resourceFunctions (h : i.Reordered i') (id : Int) :
    (i'.functions.map Prod.snd).filter (·.attachment.resource? = some id) =
      (i.functions.map Prod.snd).filter (·.attachment.resource? = some id) := by
  -- A function that belongs to a resource does not stand on its own.
  have hfilter : ∀ fs : List (Scalar × Function),
      (fs.map Prod.snd).filter (·.attachment.resource? = some id) =
        ((fs.filter (!·.2.isFreestanding)).filter
          (·.2.attachment.resource? = some id)).map Prod.snd := by
    intro fs
    rw [List.filter_map, List.filter_filter]
    refine congrArg (List.map Prod.snd) (List.filter_congr fun f _ => ?_)
    cases hattachment : f.2.attachment <;>
      simp [Function.isFreestanding, hattachment, Attachment.resource?]
  rw [hfilter, hfilter, h.members]

end Interface.Reordered

namespace Graph

/-- What is related entry by entry is related at every id. -/
theorem rel_entryAt {α : Type} {R : α → α → Prop} {xs ys : List α} (h : List.Forall₂ R xs ys)
    (id : Int) : Option.Rel R (entryAt xs id) (entryAt ys id) := by
  unfold entryAt
  split
  · generalize id.toNat = k
    induction h generalizing k with
    | nil => exact .none
    | cons hhead _ ih =>
      cases k with
      | zero => exact .some hhead
      | succ k => exact ih k
  · exact .none

/-- **Shapes are read off the types.** -/
theorem shapeWithin_congr {g g' : Graph} (htypes : g'.typeDef = g.typeDef) (enterable : List Int)
    (ref : TypeRef) : g'.shapeWithin enterable ref = g.shapeWithin enterable ref := by
  induction enterable, ref using g.shapeWithin_induction with
  | primitive enterable p => rw [shapeWithin, shapeWithin]
  | missing hmissing =>
    rw [shapeWithin_missing hmissing, shapeWithin_missing (htypes ▸ hmissing)]
  | named ht hname => rw [shapeWithin_named ht hname, shapeWithin_named (htypes ▸ ht) hname]
  | again ht hname hout =>
    rw [shapeWithin_again ht hname hout, shapeWithin_again (htypes ▸ ht) hname hout]
  | refused ht hname henter harms =>
    rw [shapeWithin_refused ht hname henter harms,
      shapeWithin_refused (htypes ▸ ht) hname henter harms]
  | @entered enterable id t arms ht hname henter harms ih =>
    have harm : g'.armWithin (enterable.erase id) = g.armWithin (enterable.erase id) := by
      funext arm
      cases arm with
      | none => rw [armWithin, armWithin]
      | some part => rw [armWithin_some, armWithin_some, ih]
    rw [shapeWithin_entered ht hname henter harms,
      shapeWithin_entered (htypes ▸ ht) hname henter harms, harm]

namespace Reordered

variable {g g' : Graph}

/-- To be reordered is mutual. -/
protected theorem symm (h : g.Reordered g') : g'.Reordered g where
  packages := h.packages.symm
  interfaces := h.interfaces.flip.imp fun _ _ hi => hi.symm
  types := h.types.symm
  worlds := h.worlds.symm

/-- The definitions are the same. -/
theorem typeDef (h : g.Reordered g') : g'.typeDef = g.typeDef := by
  funext id
  rw [Graph.typeDef, h.types, Graph.typeDef]

/-- The packages are the same. -/
theorem package (h : g.Reordered g') : g'.package = g.package := by
  funext id
  rw [Graph.package, h.packages, Graph.package]

/-- The worlds are the same. -/
theorem world (h : g.Reordered g') : g'.world = g.world := by
  funext id
  rw [Graph.world, h.worlds, Graph.world]

/-- An interface is found reordered, or is missed in both graphs alike. -/
theorem interface (h : g.Reordered g') (j : Int) :
    (∃ i i', g.interface j = .ok i ∧ g'.interface j = .ok i' ∧ i.Reordered i') ∨
      ∃ e, g.interface j = .error e ∧ g'.interface j = .error e := by
  unfold Graph.interface
  have hrel := rel_entryAt h.interfaces j
  generalize entryAt g.interfaces j = found at hrel
  generalize entryAt g'.interfaces j = found' at hrel
  cases hrel with
  | none => exact .inr ⟨_, rfl, rfl⟩
  | some hi => exact .inl ⟨_, _, rfl, rfl, hi⟩

/-- What is computed from an interface is the same if it is for interfaces that
are reordered. -/
theorem bind_interface (h : g.Reordered g') {j : Int} {α : Type} {f f' : Interface → Except Fault α}
    (hf : ∀ i i', i.Reordered i' → f' i' = f i) : g'.interface j >>= f' = g.interface j >>= f := by
  rcases h.interface j with ⟨i, i', hi, hi', hreordered⟩ | ⟨e, he, he'⟩
  · rw [hi, hi']
    exact hf i i' hreordered
  · rw [he, he']
    rfl

/-- The shapes are the same. -/
theorem shapeOf (h : g.Reordered g') : g'.shapeOf = g.shapeOf := by
  funext ref
  rw [Graph.shapeOf, typeIds, h.types, shapeWithin_congr h.typeDef, Graph.shapeOf, typeIds]

/-- The names of the packages are the same. -/
theorem packageNameOf (h : g.Reordered g') : g'.packageNameOf = g.packageNameOf := by
  funext j
  unfold Graph.packageNameOf
  exact h.bind_interface fun i i' hi => by rw [hi.package, h.package]

/-- The identities are the same. -/
theorem identityOf (h : g.Reordered g') : g'.identityOf = g.identityOf := by
  funext j key
  unfold Graph.identityOf
  exact h.bind_interface fun i i' hi => by rw [hi.givenName, h.packageNameOf]

/-- **The functions of a resource are the same**, in the same order. -/
theorem resourceFunctions (h : g.Reordered g') : g'.resourceFunctions = g.resourceFunctions := by
  funext id
  unfold Graph.resourceFunctions
  rw [h.typeDef]
  refine bind_congr fun t => ?_
  cases t.owner with
  | none => rfl
  | some owner =>
    cases owner with
    | world w =>
      simp only [ownerFunctions, h.world]
    | interface j =>
      simp only [ownerFunctions, bind_assoc, pure_bind]
      exact h.bind_interface fun i i' hi => by rw [hi.resourceFunctions]

/-- **Entries know their positions in both graphs.** -/
theorem orderly (h : g.Reordered g') (horderly : g.Orderly) : g'.Orderly where
  typeDef_id ht := horderly.typeDef_id (h.typeDef ▸ ht)
  world_of_mem hw := h.world ▸ horderly.world_of_mem (h.worlds ▸ hw)
  ns_isPart hp := horderly.ns_isPart (h.package ▸ hp)
  name_isPart hp := horderly.name_isPart (h.package ▸ hp)
  version_ne hp := horderly.version_ne (h.package ▸ hp)

end Reordered

end Graph

/-! ## Renderers -/

/-- Two renderers that differ in the order of the interfaces of their graphs
only. -/
structure Renderer.Agrees (r r' : Renderer) : Prop where
  /-- The graphs list the same. -/
  graph : r.graph.Reordered r'.graph
  /-- Owners are looked for alike. -/
  locate : r'.locate = r.locate
  /-- The module that is written is the same. -/
  scope : r'.scope = r.scope

namespace Renderer.Agrees

variable {r r' : Renderer}

/-- A reference is the same. -/
theorem referenceTo (h : r.Agrees r') : r'.referenceTo = r.referenceTo := by
  funext id
  unfold Renderer.referenceTo Renderer.reference Renderer.newReference
  rw [h.graph.typeDef, h.locate, h.scope]

/-- A composite is remembered alike. -/
theorem remembered (h : r.Agrees r') : r'.remembered = r.remembered := by
  funext shape build
  unfold Renderer.remembered
  rw [h.scope]

mutual

/-- A shape is rendered alike. -/
theorem renderShape (h : r.Agrees r') : (shape : Shape) → r'.renderShape shape = r.renderShape shape
  | .unit | .primitive _ => by rw [Renderer.renderShape, Renderer.renderShape]
  | .named id => by rw [Renderer.renderShape, Renderer.renderShape, h.referenceTo]
  | .handle id => by
    rw [Renderer.renderShape, Renderer.renderShape, h.referenceTo, h.remembered]
  | .list element | .option element | .aliasOf element => by
    rw [Renderer.renderShape, Renderer.renderShape, renderShape h element, h.remembered]
  | .result ok err => by
    rw [Renderer.renderShape, Renderer.renderShape, renderShape h ok, renderShape h err,
      h.remembered]
  | .tuple items => by
    rw [Renderer.renderShape, Renderer.renderShape, renderShapes h items, h.remembered]

/-- Several shapes are rendered alike. -/
theorem renderShapes (h : r.Agrees r') :
    (shapes : List Shape) → r'.renderShapes shapes = r.renderShapes shapes
  | [] => by rw [Renderer.renderShapes, Renderer.renderShapes]
  | shape :: rest => by
    rw [Renderer.renderShapes, Renderer.renderShapes, renderShape h shape, renderShapes h rest]

end

/-- A type reference is rendered alike. -/
theorem render (h : r.Agrees r') : r'.render = r.render := by
  funext ref
  unfold Renderer.render
  simp only [h.graph.shapeOf, h.renderShape]

/-- An arm of a result is rendered alike. -/
theorem renderOptional (h : r.Agrees r') : r'.renderOptional = r.renderOptional := by
  funext ref
  cases ref with
  | none => rfl
  | some ref => exact congrFun h.render ref

/-- A tuple is rendered alike. -/
theorem renderTuple (h : r.Agrees r') : r'.renderTuple = r.renderTuple := by
  funext items
  rw [Renderer.renderTuple, h.render, Renderer.renderTuple]

/-- The results of a function are rendered alike. -/
theorem renderResults (h : r.Agrees r') : r'.renderResults = r.renderResults := by
  funext results
  match results with
  | [] => exact congrFun h.renderTuple []
  | [result] => exact congrFun h.render result
  | first :: second :: rest => exact congrFun h.renderTuple (first :: second :: rest)

/-- A named composite is written out alike. -/
theorem expand (h : r.Agrees r') : r'.expand = r.expand := by
  funext t
  unfold Renderer.expand
  simp only [h.render, h.renderOptional, h.renderTuple, h.referenceTo]

/-- A member is emitted alike. -/
theorem member (h : r.Agrees r') : r'.member = r.member := by
  funext scope raw type
  rw [Renderer.member, h.render, Renderer.member]

/-- Parameters are emitted alike. -/
theorem params (h : r.Agrees r') : r'.params = r.params := by
  funext scope ps
  rw [Renderer.params, h.member, Renderer.params]

/-- A signature is emitted alike. -/
theorem signature (h : r.Agrees r') : r'.signature = r.signature := by
  funext scope f ps
  rw [Renderer.signature, h.params, h.renderResults, Renderer.signature]

/-- **A type is emitted alike.** -/
theorem emitType (h : r.Agrees r') : r'.emitType = r.emitType := by
  funext site t
  unfold Renderer.emitType Renderer.emitResource Renderer.emitRecord Renderer.emitVariant
    Renderer.emitMethods Renderer.emitCompanion
  simp only [h.member, h.render, h.params, h.signature, h.expand, h.graph.resourceFunctions]

/-- **A function is emitted alike.** -/
theorem emitFunction (h : r.Agrees r') : r'.emitFunction = r.emitFunction := by
  funext site f
  rw [Renderer.emitFunction, h.signature, Renderer.emitFunction]

end Renderer.Agrees

/-! ## Assignments -/

/-- The graph that the options select a world of does not matter, as long as
the worlds are the same. -/
theorem selectWorld_reordered {g g' : Graph} (h : g.Reordered g') (o : Options) :
    selectWorld g' o = selectWorld g o := by
  rw [selectWorld, h.worlds, selectWorld]

namespace Assignment

/-- The assignment over another graph. -/
def withGraph (a : Assignment) (g : Graph) : Assignment := { a with graph := g }

variable {a : Assignment} {g : Graph} (h : a.graph.Reordered g)

include h

/-- An interface is located alike. -/
theorem interfaceLocation_withGraph :
    (a.withGraph g).interfaceLocation = a.interfaceLocation := by
  funext j direction
  have hpackage : (a.withGraph g).graph.packageNameOf = a.graph.packageNameOf := h.packageNameOf
  have hkey : (a.withGraph g).keyOf = a.keyOf := rfl
  have hlayout : (a.withGraph g).layout = a.layout := rfl
  unfold interfaceLocation
  rcases h.interface j with ⟨i, i', hi, hi', hreordered⟩ | ⟨e, he, he'⟩
  · rw [hi, show (a.withGraph g).graph.interface j = .ok i' from hi']
    simp only [Emission.ofExcept, pure_bind, hpackage, hkey, hlayout, hreordered.givenName]
  · rw [he, show (a.withGraph g).graph.interface j = .error e from he']
    rfl

/-- The direction of the types of a world is the same. -/
theorem ownedDirection_withGraph : (a.withGraph g).ownedDirection = a.ownedDirection := by
  have hdirection : (a.withGraph g).directionInWorld = a.directionInWorld := by
    funext id entry
    unfold directionInWorld
    rw [show (a.withGraph g).graph.typeDef = a.graph.typeDef from h.typeDef]
  funext id world
  unfold ownedDirection worldDirection
  rw [hdirection]
  rfl

/-- **An owner is located alike.** -/
theorem locate_withGraph : (a.withGraph g).locate = a.locate := by
  funext owner
  cases owner with
  | interface j =>
    unfold locate
    rw [interfaceLocation_withGraph h]
    rfl
  | world id =>
    unfold locate
    rw [show (a.withGraph g).graph.world = a.graph.world from h.world, ownedDirection_withGraph h]
    rfl

/-- **Types and functions are written alike.** -/
theorem renderer_withGraph (location : Location) :
    (a.renderer location).Agrees ((a.withGraph g).renderer location) where
  graph := h
  locate := locate_withGraph h
  scope := rfl

/-- A type is declared alike. -/
theorem generateType_withGraph : (a.withGraph g).generateType = a.generateType := by
  funext key location site id
  unfold generateType
  rw [show (a.withGraph g).graph.typeDef = a.graph.typeDef from h.typeDef,
    (renderer_withGraph h location).emitType]

/-- A function is declared alike. -/
theorem generateFunction_withGraph : (a.withGraph g).generateFunction = a.generateFunction := by
  funext key location site f
  unfold generateFunction
  rw [(renderer_withGraph h location).emitFunction]

/-- Resources are refused alike. -/
theorem refuseExported_withGraph : (a.withGraph g).refuseExported = a.refuseExported := by
  funext direction identity types
  unfold refuseExported
  rw [show (a.withGraph g).graph.typeDef = a.graph.typeDef from h.typeDef]

/-- A function of the world is declared alike. -/
theorem generateWorldFunction_withGraph :
    (a.withGraph g).generateWorldFunction = a.generateWorldFunction := by
  funext f direction
  unfold generateWorldFunction
  rw [generateFunction_withGraph h]
  rfl

/-- A type of the world is declared alike. -/
theorem generateWorldType_withGraph : (a.withGraph g).generateWorldType = a.generateWorldType := by
  funext id direction
  unfold generateWorldType declaresInWorld
  rw [show (a.withGraph g).graph.typeDef = a.graph.typeDef from h.typeDef,
    refuseExported_withGraph h, locate_withGraph h, generateType_withGraph h]
  rfl

end Assignment

end ComponentBindings
