import ComponentBindings.Emit
import ComponentBindings.Proofs.Closed
import ComponentBindings.Proofs.Faults
import ComponentBindings.Proofs.Json
import ComponentBindings.Proofs.Shapes

/-!
# Emitting from a closed graph

Ids enter a run from the graph only, and a closed graph vouches for each of
them. So whatever is looked up on the way to a declaration is there: the type
behind a reference and the types in its shape, the owner of a type, the
functions of a resource. What is left to go wrong is what the document says.
`Renderer.Sound` is what a renderer needs for that, and every function of the
renderer gets one statement, up to the declarations of types and of functions
(`Renderer.Sound.failsWithin_emitType`,
`Renderer.Sound.failsWithin_emitFunction`).

A composite is written out only if it is one. The kinds that are written out
are those that the emitter sends there, so that the fault of writing out
anything else (`Fault.notComposite`) cannot occur.
-/

namespace ComponentBindings

/-! ## Looking things up -/

namespace Graph

variable {g : Graph}

/-- A type reference that points at a type if anywhere. -/
def HasRef (g : Graph) (ref : TypeRef) : Prop := ∀ id, ref = .defined id → g.Has .types id

/-- A shape whose names are those of types. -/
def HasShape (g : Graph) (shape : Shape) : Prop := ∀ id ∈ shape.names, g.Has .types id

/-- An owner that is there. -/
def HasOwner (g : Graph) : TypeOwner → Prop
  | .interface id => g.Has .interfaces id
  | .world id => g.Has .worlds id

/-- A type at a position is found. -/
theorem ends_typeDef {id : Int} (h : g.Has .types id) :
    Ends (fun t => g.typeDef id = .ok t) (g.typeDef id) := by
  obtain ⟨t, -, ht⟩ := exists_typeDef h
  rw [ht]
  rfl

/-- An interface at a position is found. -/
theorem ends_interface {id : Int} (h : g.Has .interfaces id) :
    Ends (· ∈ g.interfaces) (g.interface id) := by
  obtain ⟨i, hmem, hi⟩ := exists_interface h
  rw [hi]
  exact hmem

/-- A package at a position is found. -/
theorem ends_package {id : Int} (h : g.Has .packages id) :
    Ends (fun _ => True) (g.package id) := by
  obtain ⟨p, -, hp⟩ := exists_package h
  rw [hp]
  trivial

/-- A world at a position is found. -/
theorem ends_world {id : Int} (h : g.Has .worlds id) : Ends (· ∈ g.worlds) (g.world id) := by
  obtain ⟨w, hmem, hw⟩ := exists_world h
  rw [hw]
  exact hmem

/-- The functions of an owner are functions of the graph. -/
theorem ends_ownerFunctions {owner : TypeOwner} (howner : g.HasOwner owner) :
    Ends (fun fs => ∀ f ∈ fs, g.HasFunction f) (g.ownerFunctions owner) := by
  cases owner with
  | interface id =>
    refine (ends_interface howner).bind fun i hi f hf => ?_
    obtain ⟨⟨key, f⟩, hentry, rfl⟩ := List.mem_map.mp hf
    exact .interface hi hentry
  | world id =>
    refine (ends_world howner).bind fun w hw f hf => ?_
    obtain ⟨⟨key, item⟩, hentry, hitem⟩ := List.mem_filterMap.mp hf
    cases item with
    | function f' =>
      obtain rfl := Option.some.inj hitem
      exact .world hw hentry
    | interface _ | type _ => cases hitem

/-- What is refused without a name ends generation. -/
theorem ofGeneration_refusal (kind : TypeKind) (id : Int) : (kind.refusal id).OfGeneration := by
  cases kind <;> trivial

namespace Closed

variable (h : g.Closed)

include h

/-- The parts of a type are types. -/
theorem hasRef_part {t : TypeDef} (ht : t ∈ g.types) {ref : TypeRef} (href : ref ∈ t.kind.parts) :
    g.HasRef ref := by
  rintro id rfl
  exact h.has (stores_of_mem_parts ht href)

/-- The owner of a type is there. -/
theorem hasOwner {t : TypeDef} (ht : t ∈ g.types) {owner : TypeOwner}
    (howner : t.owner = some owner) : g.HasOwner owner := by
  cases owner with
  | interface id => exact h.has (.ownerInterface ht howner)
  | world id => exact h.has (.ownerWorld ht howner)

/-- The parameters of a function have types. -/
theorem hasRef_param {f : Function} (hf : g.HasFunction f) {p : Param} (hp : p ∈ f.params) :
    g.HasRef p.type :=
  fun _ hid => h.has (.param hf hp hid)

/-- The results of a function have types. -/
theorem hasRef_result {f : Function} (hf : g.HasFunction f) {ref : TypeRef}
    (href : ref ∈ f.results) : g.HasRef ref := by
  rintro id rfl
  exact h.has (.result hf href)

/-- The package of an interface has a name. -/
theorem ends_packageNameOf {id : Int} (hid : g.Has .interfaces id) :
    Ends (fun _ => True) (g.packageNameOf id) := by
  refine (ends_interface hid).bind fun i hi => ?_
  cases hpackage : i.package with
  | none => trivial
  | some package =>
    exact (ends_package (h.has (.interfacePackage hi hpackage))).bind fun _ _ => trivial

/-- The identity of an interface is a text if its keys are. -/
theorem ends_identityOf {id : Int} (hid : g.Has .interfaces id) {key : Option Scalar}
    (hkey : ∀ k, key = some k → k.isText = true) :
    Ends (fun identity => identity.isText = true) (g.identityOf id key) := by
  refine (ends_interface hid).bind fun i _ => (h.ends_packageNameOf hid).bind fun package _ => ?_
  cases i.givenName with
  | some name => cases package <;> rfl
  | none =>
    cases hfound : key.filter (· ≠ .null) with
    | none => trivial
    | some k => exact hkey k (Option.filter_eq_some_iff.mp hfound).1

/-- The functions of a resource are functions of the graph. -/
theorem ends_resourceFunctions {id : Int} (hid : g.Has .types id) :
    Ends (fun fs => ∀ f ∈ fs, g.HasFunction f) (g.resourceFunctions id) := by
  refine (ends_typeDef hid).bind fun t ht => ?_
  cases howner : t.owner with
  | none => exact fun f hf => absurd hf List.not_mem_nil
  | some owner =>
    refine (ends_ownerFunctions (h.hasOwner (mem_of_typeDef ht) howner)).bind fun fs hfs => ?_
    exact fun f hf => hfs f (List.mem_of_mem_filter hf)

/-- **The shape of a reference is found, or the reference is faulty.** -/
theorem ends_shapeWithin (enterable : List Int) {ref : TypeRef} (href : g.HasRef ref) :
    Ends g.HasShape (g.shapeWithin enterable ref) := by
  induction enterable, ref using g.shapeWithin_induction with
  | primitive enterable p =>
    rw [shapeWithin]
    exact fun id hid => absurd hid List.not_mem_nil
  | missing hmissing => exact absurd hmissing (typeDef_ne_error (href _ rfl))
  | named ht hname =>
    rw [shapeWithin_named ht hname]
    exact fun id hid => List.mem_singleton.mp hid ▸ href _ rfl
  | again ht hname hout =>
    rw [shapeWithin_again ht hname hout]
    trivial
  | refused ht hname henter harms =>
    rw [shapeWithin_refused ht hname henter harms]
    exact ofGeneration_refusal _ _
  | @entered enterable id t arms ht hname henter harms ih =>
    have hmem := mem_of_typeDef ht
    have hbelow : ∀ arm ∈ arms, Ends g.HasShape (g.armWithin (enterable.erase id) arm) := by
      intro arm harm
      cases arm with
      | none =>
        rw [armWithin]
        exact fun id hid => absurd hid List.not_mem_nil
      | some part =>
        rw [armWithin_some]
        exact ih part (h.hasRef_part hmem ((TypeKind.mem_parts_iff harms).mpr harm))
    rw [shapeWithin_entered ht hname henter harms]
    refine EndsIn.map ((EndsIn.mapM hbelow).imp fun shapes hshapes id' hid' => ?_)
    rcases TypeKind.of_mem_names_shapeOfArms hid' with ⟨borrowed, hkind⟩ | ⟨shape, hshape, hid'⟩
    · exact h.has (.handle hmem hkind)
    · exact hshapes shape hshape id' hid'

end Closed

end Graph

/-! ## Rendering -/

/-- **A renderer that fails only as it should**: its graph is in order and
has no loose ends, and owners that are there are located or refused. -/
structure Renderer.Sound (r : Renderer) : Prop where
  /-- Entries know their positions. -/
  orderly : r.graph.Orderly
  /-- No id is loose. -/
  closed : r.graph.Closed
  /-- An owner that is there is located, or generation fails. -/
  locate : ∀ {owner}, r.graph.HasOwner owner → FailsWithin (r.locate owner)

/-- A type with a name that has no word cannot be called, nor can one without
a name. -/
theorem TypeDef.ends_identifier (t : TypeDef) : Ends (fun _ => True) t.identifier := by
  unfold identifier
  cases t.name with
  | none => trivial
  | some name => exact ends_identifierOf

namespace Renderer

variable {r : Renderer}

/-- A composite is built or known. -/
theorem failsWithin_remembered {shape : Shape} {build : Emission String}
    (hbuild : FailsWithin build) : FailsWithin (r.remembered shape build) := by
  refine FailsWithin.get.bind fun s _ => ?_
  split
  · exact .pure _
  · exact hbuild.bind fun _ _ => (FailsWithin.modify _).bind fun _ _ => .pure _

/-- A reference that is made anew. -/
theorem Sound.failsWithin_newReference (hr : r.Sound) {t : TypeDef} (ht : t ∈ r.graph.types) :
    FailsWithin (r.newReference t) := by
  refine FailsWithin.ofExcept_bind t.ends_identifier fun name _ => ?_
  cases howner : t.owner with
  | none => exact .pure _
  | some owner =>
    exact (hr.locate (hr.closed.hasOwner ht howner)).bind fun _ _ => .pure _

/-- A reference, made anew or remembered. -/
theorem Sound.failsWithin_reference (hr : r.Sound) {t : TypeDef} (ht : t ∈ r.graph.types) :
    FailsWithin (r.reference t) := by
  refine FailsWithin.get.bind fun s _ => ?_
  split
  · exact .pure _
  · exact (hr.failsWithin_newReference ht).bind fun _ _ =>
      (FailsWithin.modify _).bind fun _ _ => .pure _

/-- A reference by id. -/
theorem Sound.failsWithin_referenceTo (hr : r.Sound) {id : Int} (hid : r.graph.Has .types id) :
    FailsWithin (r.referenceTo id) :=
  FailsWithin.ofExcept_bind (Graph.ends_typeDef hid) fun _ ht =>
    hr.failsWithin_reference (Graph.mem_of_typeDef ht)

mutual

/-- **A shape is rendered if its names are those of types.** -/
theorem Sound.failsWithin_renderShape (hr : r.Sound) :
    (shape : Shape) → r.graph.HasShape shape →
    FailsWithin (r.renderShape shape)
  | .unit, _ => by
    unfold renderShape
    exact .pure _
  | .primitive _, _ => by
    unfold renderShape
    exact .pure _
  | .named id, h => by
    unfold renderShape
    exact hr.failsWithin_referenceTo (h id (List.mem_singleton_self id))
  | .handle resource, h => by
    unfold renderShape
    exact failsWithin_remembered
      (hr.failsWithin_referenceTo (h resource (List.mem_singleton_self resource)))
  | .list element, h => by
    unfold renderShape
    exact failsWithin_remembered ((hr.failsWithin_renderShape element h).bind fun _ _ => .pure _)
  | .option element, h => by
    unfold renderShape
    exact failsWithin_remembered ((hr.failsWithin_renderShape element h).bind fun _ _ => .pure _)
  | .aliasOf target, h => by
    unfold renderShape
    exact failsWithin_remembered (hr.failsWithin_renderShape target h)
  | .result ok err, h => by
    unfold renderShape
    have hok := hr.failsWithin_renderShape ok fun id hid => h id (List.mem_append_left _ hid)
    have herr := hr.failsWithin_renderShape err fun id hid => h id (List.mem_append_right _ hid)
    exact failsWithin_remembered (hok.bind fun _ _ => herr.bind fun _ _ => .pure _)
  | .tuple items, h => by
    unfold renderShape
    have hitems := hr.failsWithin_renderShapes items fun shape hshape id hid =>
      h id (Shape.mem_namesOfItems.mpr ⟨shape, hshape, hid⟩)
    exact failsWithin_remembered (hitems.bind fun _ _ => .pure _)

/-- Several shapes are rendered one after the other. -/
theorem Sound.failsWithin_renderShapes (hr : r.Sound) :
    (shapes : List Shape) →
    (∀ shape ∈ shapes, r.graph.HasShape shape) → FailsWithin (r.renderShapes shapes)
  | [], _ => by
    unfold renderShapes
    exact .pure _
  | shape :: rest, h => by
    unfold renderShapes
    have hshape := hr.failsWithin_renderShape shape (h shape List.mem_cons_self)
    have hrest := hr.failsWithin_renderShapes rest fun s hs => h s (List.mem_cons_of_mem shape hs)
    exact hshape.bind fun _ _ => hrest.bind fun _ _ => .pure _

end

/-- **A reference to a type is rendered.** -/
theorem Sound.failsWithin_render (hr : r.Sound) {ref : TypeRef} (href : r.graph.HasRef ref) :
    FailsWithin (r.render ref) :=
  FailsWithin.ofExcept_bind (hr.closed.ends_shapeWithin _ href) fun shape hshape =>
    (hr.failsWithin_renderShape shape hshape).bind fun _ _ => .pure _

/-- An arm of a result is rendered. -/
theorem Sound.failsWithin_renderOptional (hr : r.Sound) {arm : Option TypeRef}
    (harm : ∀ ref, arm = some ref → r.graph.HasRef ref) : FailsWithin (r.renderOptional arm) := by
  cases arm with
  | none => exact .pure _
  | some ref => exact hr.failsWithin_render (harm ref rfl)

/-- Several references are rendered as a tuple. -/
theorem Sound.failsWithin_renderTuple (hr : r.Sound) {refs : List TypeRef}
    (hrefs : ∀ ref ∈ refs, r.graph.HasRef ref) : FailsWithin (r.renderTuple refs) :=
  (FailsWithin.mapM fun ref href => hr.failsWithin_render (hrefs ref href)).bind
    fun _ _ => .pure _

/-- The results of a function are rendered. -/
theorem Sound.failsWithin_renderResults (hr : r.Sound) {refs : List TypeRef}
    (hrefs : ∀ ref ∈ refs, r.graph.HasRef ref) : FailsWithin (r.renderResults refs) := by
  match refs with
  | [] => exact hr.failsWithin_renderTuple hrefs
  | [ref] => exact hr.failsWithin_render (hrefs ref (List.mem_singleton_self ref))
  | first :: second :: rest => exact hr.failsWithin_renderTuple hrefs

/-- **A type is written out** if it is of a kind that can be. -/
theorem Sound.failsWithin_expand (hr : r.Sound) {t : TypeDef} (ht : t ∈ r.graph.types)
    (hkind : t.kind.isComposite = true) : FailsWithin (r.expand t) := by
  have hpart : ∀ ref ∈ t.kind.parts, r.graph.HasRef ref := fun _ => hr.closed.hasRef_part ht
  unfold expand
  cases hform : t.kind with
  | list element | option element | aliasOf element =>
    rw [hform] at hpart
    exact (hr.failsWithin_render (hpart element (List.mem_singleton_self element))).bind
      fun _ _ => .pure _
  | result ok err =>
    rw [hform] at hpart
    have hok : FailsWithin (r.renderOptional ok) := hr.failsWithin_renderOptional fun ref href =>
      hpart ref (List.mem_append_left _ (Option.mem_toList.mpr href))
    have herr : FailsWithin (r.renderOptional err) := hr.failsWithin_renderOptional fun ref href =>
      hpart ref (List.mem_append_right _ (Option.mem_toList.mpr href))
    exact hok.bind fun _ _ => herr.bind fun _ _ => .pure _
  | tuple items =>
    rw [hform] at hpart
    exact hr.failsWithin_renderTuple hpart
  | handle resource borrowed =>
    exact (hr.failsWithin_referenceTo (hr.closed.has (.handle ht hform))).bind fun _ _ => .pure _
  | record _ | variant _ | enumeration _ | flags _ | resource | future _ | stream _ =>
    rw [hform] at hkind
    cases hkind

end Renderer

/-! ## Emitting -/

/-- A site whose identity is a text can be named by a marker. -/
theorem Site.ends_argument {site : Site} (h : site.identity.isText = true) :
    Ends (fun _ => True) site.argument := by
  unfold argument
  obtain ⟨value, hvalue⟩ := Scalar.exists_text_of_isText h
  rw [hvalue]
  trivial

/-- Flags are stored if there is room for them. -/
theorem Storage.ends_ofCount {name : String} {count : Nat} :
    Ends (fun _ => True) (Storage.ofCount name count) := by
  unfold ofCount
  split <;> trivial

namespace Renderer

variable {r : Renderer}

/-- A field or a parameter is emitted. -/
theorem Sound.failsWithin_member (hr : r.Sound) {scope raw : String} {ref : TypeRef}
    (href : r.graph.HasRef ref) : FailsWithin (r.member scope raw ref) :=
  (FailsWithin.ofNaming failsWithin_declare).bind fun _ _ =>
    (hr.failsWithin_render href).bind fun _ _ => .pure _

/-- Parameters are emitted. -/
theorem Sound.failsWithin_params (hr : r.Sound) {scope : String} {ps : List Param}
    (hps : ∀ p ∈ ps, r.graph.HasRef p.type) : FailsWithin (r.params scope ps) :=
  FailsWithin.mapM fun p hp => hr.failsWithin_member (hps p hp)

/-- **The signature of a function** is emitted for some of its parameters. -/
theorem Sound.failsWithin_signature (hr : r.Sound) {scope : String} {f : Function}
    (hf : r.graph.HasFunction f) {ps : List Param} (hps : ∀ p ∈ ps, p ∈ f.params) :
    FailsWithin (r.signature scope f ps) := by
  have hparams : ∀ name, FailsWithin (r.params (parameterScope scope name) ps) := fun _ =>
    hr.failsWithin_params fun p hp => hr.closed.hasRef_param hf (hps p hp)
  have hresults := hr.failsWithin_renderResults fun ref href => hr.closed.hasRef_result hf href
  exact (FailsWithin.ofNaming failsWithin_declare).bind fun name _ =>
    (hparams name).bind fun _ _ => hresults.bind fun _ _ => .pure _

/-- The fields of a record are emitted. -/
theorem Sound.failsWithin_emitRecord (hr : r.Sound) {scope : String} {fields : List Field}
    (hfields : ∀ f ∈ fields, r.graph.HasRef f.type) : FailsWithin (r.emitRecord scope fields) :=
  (FailsWithin.mapM fun f hf => hr.failsWithin_member (hfields f hf)).map _

/-- The cases of a variant are emitted. -/
theorem Sound.failsWithin_emitVariant (hr : r.Sound) {scope : String} {cases : List Case}
    (hcases : ∀ c ∈ cases, ∀ ref, c.payload = some ref → r.graph.HasRef ref) :
    FailsWithin (r.emitVariant scope cases) := by
  refine FailsWithin.map (FailsWithin.mapM fun c hc => ?_) _
  refine (FailsWithin.ofNaming failsWithin_declare).bind fun name _ => ?_
  cases hpayload : c.payload with
  | none => exact .pure _
  | some ref => exact (hr.failsWithin_render (hcases c hc ref hpayload)).bind fun _ _ => .pure _

/-- The cases of an enumeration are emitted. -/
theorem failsWithin_emitEnumeration {scope : String} {labels : List Label} :
    FailsWithin (emitEnumeration scope labels) :=
  FailsWithin.map (FailsWithin.mapM fun _ _ =>
    (FailsWithin.ofNaming failsWithin_declare).bind fun _ _ => .pure _) _

/-- The constants of flags are emitted. -/
theorem failsWithin_emitFlags {scope : String} {storage : Storage} {names : List String} :
    FailsWithin (emitFlags scope storage names) :=
  (FailsWithin.ofNaming failsWithin_claim).bind fun _ _ =>
    (FailsWithin.ofNaming failsWithin_claim).bind fun _ _ =>
      (FailsWithin.mapM fun _ _ => .ofNaming failsWithin_declare).map _

/-- What is left without the receiver was there before. -/
theorem mem_of_mem_withoutReceiver {ps : List Param} {p : Param} (h : p ∈ withoutReceiver ps) :
    p ∈ ps := by
  unfold withoutReceiver at h
  split at h
  · exact h
  · split at h
    · exact List.mem_cons_of_mem _ h
    · exact h

/-- The methods of a resource are emitted. -/
theorem Sound.failsWithin_emitMethods (hr : r.Sound) {scope : String} {fs : List Function}
    (hfs : ∀ f ∈ fs, r.graph.HasFunction f) : FailsWithin (r.emitMethods scope fs) := by
  refine FailsWithin.filterMapM fun f hf => ?_
  cases f.attachment with
  | method _ =>
    exact (hr.failsWithin_signature (hfs f hf) fun _ => mem_of_mem_withoutReceiver).map _
  | freestanding | static _ | constructor _ => exact .pure _

/-- The companion of a resource is emitted. -/
theorem Sound.failsWithin_emitCompanion (hr : r.Sound) {scope : String} {fs : List Function}
    (hfs : ∀ f ∈ fs, r.graph.HasFunction f) : FailsWithin (r.emitCompanion scope fs) := by
  refine FailsWithin.filterMapM fun ⟨f, position⟩ hf => ?_
  have hfunction := hfs f (List.fst_mem_of_mem_zipIdx hf)
  dsimp only
  cases f.attachment with
  | constructor _ =>
    exact (FailsWithin.ofNaming failsWithin_claim).bind fun _ _ =>
      (hr.failsWithin_params fun p hp => hr.closed.hasRef_param hfunction hp).bind
        fun _ _ => .pure _
  | static _ =>
    exact (hr.failsWithin_signature hfunction fun _ hp => hp).bind fun _ _ => .pure _
  | freestanding | method _ => exact .pure _

/-- **A resource is emitted.** -/
theorem Sound.failsWithin_emitResource (hr : r.Sound) {site : Site}
    (hsite : site.identity.isText = true) {t : TypeDef} (ht : r.graph.typeDef t.id = .ok t) :
    FailsWithin (r.emitResource site t) := by
  have hid : r.graph.Has .types t.id :=
    isSome_entryAt.mp (Option.isSome_of_eq_some (entryAt_of_elim_eq_ok ht))
  unfold emitResource
  by_cases hdirection : site.direction = .exported
  · rw [if_pos hdirection]
    refine FailsWithin.throw_bind (e := .exportedResource _ _) ?_
    trivial
  rw [if_neg hdirection]
  cases t.name with
  | none => exact .throw trivial
  | some raw =>
    exact (FailsWithin.ofNaming failsWithin_declare).bind fun name _ =>
      (FailsWithin.ofNaming failsWithin_claim).bind fun _ _ =>
        FailsWithin.ofExcept_bind (hr.closed.ends_resourceFunctions hid) fun fs hfs =>
          (FailsWithin.ofExcept (Site.ends_argument hsite)).bind fun _ _ =>
            (hr.failsWithin_emitMethods hfs).bind fun _ _ =>
              (hr.failsWithin_emitCompanion hfs).bind fun _ _ => .pure _

/-- A type is declared under its identifier, with a body that is emitted. -/
theorem failsWithin_declared {site : Site} {t : TypeDef} {raw : String}
    {body : String → Emission TypeBody} (hbody : ∀ name, FailsWithin (body name)) :
    FailsWithin (do
      let name ← Emission.ofNaming (declare .type raw site.scope)
      return { id := t.id, name, docs := t.docs, body := ← body name : TypeDeclaration }) :=
  (FailsWithin.ofNaming failsWithin_declare).bind fun name _ =>
    (hbody name).bind fun _ _ => .pure _

/-- **A type is emitted**, whatever its kind. -/
theorem Sound.failsWithin_emitType (hr : r.Sound) {site : Site}
    (hsite : site.identity.isText = true) {t : TypeDef} (ht : r.graph.typeDef t.id = .ok t) :
    FailsWithin (r.emitType site t) := by
  have hmem := Graph.mem_of_typeDef ht
  have hpart : ∀ ref ∈ t.kind.parts, r.graph.HasRef ref := fun _ => hr.closed.hasRef_part hmem
  unfold emitType
  cases t.name with
  | none => exact .throw trivial
  | some raw =>
    simp only
    cases hkind : t.kind with
    | record fields =>
      rw [hkind] at hpart
      exact failsWithin_declared fun name => hr.failsWithin_emitRecord fun f hf =>
        hpart f.type (List.mem_map_of_mem hf)
    | variant cases =>
      rw [hkind] at hpart
      exact failsWithin_declared fun name => hr.failsWithin_emitVariant fun c hc ref href =>
        hpart ref (List.mem_filterMap.mpr ⟨c, hc, href⟩)
    | enumeration labels => exact failsWithin_declared fun name => failsWithin_emitEnumeration
    | flags names =>
      exact (FailsWithin.ofExcept Storage.ends_ofCount).bind fun _ _ =>
        failsWithin_declared fun name => failsWithin_emitFlags
    | resource => exact hr.failsWithin_emitResource hsite ht
    | aliasOf _ | list _ | option _ | result _ _ | tuple _ | handle _ _ =>
      refine failsWithin_declared fun name => (hr.failsWithin_expand hmem ?_).map _
      rw [hkind]
      rfl
    | future _ | stream _ => exact .throw trivial

/-- **A function of its own is emitted.** -/
theorem Sound.failsWithin_emitFunction (hr : r.Sound) {site : Site}
    (hsite : site.identity.isText = true) {f : Function} (hf : r.graph.HasFunction f) :
    FailsWithin (r.emitFunction site f) :=
  (hr.failsWithin_signature hf fun _ hp => hp).bind fun _ _ =>
    (FailsWithin.ofExcept (Site.ends_argument hsite)).bind fun _ _ => .pure _

end Renderer

end ComponentBindings
