import ComponentBindings.Proofs.Licences
import ComponentBindings.Proofs.Referred
import ComponentBindings.Proofs.Shapes

/-!
# What a declaration adds to a session

To emit a declaration is to claim identifiers and to locate the owners of the
types it is written with; nothing else reaches the session. So a licence
permits a declaration if it allows for the claims, and permits the owners to
be located (`Renderer.permits_emitType`, `Renderer.permits_emitFunction`).

The claims are listed by the scopes that they are made in. Below a declared
type there are several, one for each `Part` of the declaration, and what is
claimed in a part is given by the definition of the type alone (`Graph.Fills`).
They are below the name of the type in a second sense, too: when they are made,
the name is held already.
-/

namespace ComponentBindings

/-! ## Lookups never collide -/

/-- To look an entry up is no collision. -/
theorem neverCollides_elim {α : Type} {entry : Option α} {fault : Fault}
    (h : fault.NoCollision) : NeverCollides (entry.elim (.error fault) .ok) := by
  cases entry with
  | none => exact h
  | some _ => trivial

/-- The identifier of a type is found, or it has no name, or none with a
word. -/
theorem TypeDef.neverCollides_identifier (t : TypeDef) : NeverCollides t.identifier := by
  unfold identifier
  cases t.name with
  | none => trivial
  | some name => exact neverCollides_identifierOf

/-- Flags fit, or they are too many. -/
theorem neverCollides_ofCount {name : String} {count : Nat} :
    NeverCollides (Storage.ofCount name count) := by
  unfold Storage.ofCount
  split <;> trivial

/-- An identity is an argument, or it cannot be one. -/
theorem Site.neverCollides_argument (site : Site) : NeverCollides site.argument := by
  unfold argument
  cases site.identity <;> trivial

namespace Graph

variable (g : Graph)

/-- A type definition is looked up. -/
theorem neverCollides_typeDef (id : Int) : NeverCollides (g.typeDef id) :=
  neverCollides_elim trivial

/-- An interface is looked up. -/
theorem neverCollides_interface (id : Int) : NeverCollides (g.interface id) :=
  neverCollides_elim trivial

/-- A package is looked up. -/
theorem neverCollides_package (id : Int) : NeverCollides (g.package id) :=
  neverCollides_elim trivial

/-- A world is looked up. -/
theorem neverCollides_world (id : Int) : NeverCollides (g.world id) := neverCollides_elim trivial

/-- The package of an interface is looked up. -/
theorem neverCollides_packageNameOf (id : Int) : NeverCollides (g.packageNameOf id) := by
  refine NeverCollides.bind (g.neverCollides_interface id) fun i _ => ?_
  cases i.package with
  | none => trivial
  | some package => exact NeverCollides.bind (g.neverCollides_package package) fun _ _ => trivial

/-- The identity of an interface is found, or it has none. -/
theorem neverCollides_identityOf (id : Int) (key : Option Scalar) :
    NeverCollides (g.identityOf id key) := by
  refine NeverCollides.bind (g.neverCollides_interface id) fun i _ =>
    NeverCollides.bind (g.neverCollides_packageNameOf id) fun package _ => ?_
  cases i.givenName with
  | some name => cases package <;> trivial
  | none => exact neverCollides_elim trivial

/-- The functions of an owner are looked up. -/
theorem neverCollides_ownerFunctions (owner : TypeOwner) :
    NeverCollides (g.ownerFunctions owner) := by
  cases owner with
  | interface j => exact NeverCollides.bind (g.neverCollides_interface j) fun _ _ => trivial
  | world k => exact NeverCollides.bind (g.neverCollides_world k) fun _ _ => trivial

/-- The functions of a resource are looked up. -/
theorem neverCollides_resourceFunctions (id : Int) : NeverCollides (g.resourceFunctions id) := by
  refine NeverCollides.bind (g.neverCollides_typeDef id) fun t _ => ?_
  cases t.owner with
  | none => trivial
  | some owner =>
    exact NeverCollides.bind (g.neverCollides_ownerFunctions owner) fun _ _ => trivial

/-- **To find a shape is no collision.** -/
theorem neverCollides_shapeWithin (enterable : List Int) (ref : TypeRef) :
    NeverCollides (g.shapeWithin enterable ref) := by
  induction enterable, ref using g.shapeWithin_induction with
  | primitive enterable p =>
    rw [shapeWithin]
    trivial
  | @missing _ id fault hmissing =>
    rw [shapeWithin_missing hmissing]
    have hlookup := g.neverCollides_typeDef id
    rwa [hmissing] at hlookup
  | named ht hname =>
    rw [shapeWithin_named ht hname]
    trivial
  | again ht hname hout =>
    rw [shapeWithin_again ht hname hout]
    trivial
  | @refused _ _ t ht hname henter harms =>
    rw [shapeWithin_refused ht hname henter harms]
    cases t.kind <;> trivial
  | @entered enterable id t arms ht hname henter harms ih =>
    have hbelow : ∀ arm ∈ arms, NeverCollides (g.armWithin (enterable.erase id) arm) := by
      rintro (_ | part) -
      · rw [armWithin]
        trivial
      · rw [armWithin_some]
        exact ih part
    rw [shapeWithin_entered ht hname henter harms]
    exact EndsIn.map ((EndsIn.mapM hbelow).imp fun _ _ => trivial)

end Graph

namespace Renderer

variable {r : Renderer} {L : Licence} {before after : Session} {refs refs' : List TypeRef}

/-! ## Rendering -/

/-- The owner of a type with a name may be located. -/
def Locates (r : Renderer) (L : Licence) (before : Session) (id : Int) : Prop :=
  ∀ t owner, r.graph.typeDef id = .ok t → t.name.isSome → t.owner = some owner →
    L.Permits before (r.locate owner)

/-- **The owners of all types that are named where some references are written
may be located.** -/
def LocatesAll (r : Renderer) (L : Licence) (before : Session) (refs : List TypeRef) : Prop :=
  ∀ id, r.graph.Names refs id → r.Locates L before id

/-- What is named where fewer references are written may be located, too. -/
theorem LocatesAll.subset (h : r.LocatesAll L before refs) (hsub : refs' ⊆ refs) :
    r.LocatesAll L before refs' := by
  rintro id ⟨ref, href, hnames⟩
  exact h id ⟨ref, hsub href, hnames⟩

/-- What may be located may be later on. -/
theorem LocatesAll.mono (h : r.LocatesAll L before refs) (hmore : before.Advances after) :
    r.LocatesAll L after refs :=
  fun id hid t owner ht hname howner => (h id hid t owner ht hname howner).mono hmore

/-- A composite is built, or it is known. -/
theorem permits_remembered {shape : Shape} {build : Emission String}
    (hbuild : L.Permits before build) : L.Permits before (r.remembered shape build) := by
  refine Licence.Permits.get.bind fun s _ => ?_
  split
  · exact .pure _
  · refine hbuild.bind fun _ _ => (Licence.Permits.modify ?_).bind fun _ _ => .pure _
    exact fun s _ => .of_eq rfl rfl rfl

/-- A reference is made anew by locating the owner, if there is a name. -/
theorem permits_newReference {t : TypeDef}
    (h : ∀ owner, t.name.isSome → t.owner = some owner → L.Permits before (r.locate owner)) :
    L.Permits before (r.newReference t) := by
  refine Licence.Permits.ofExcept_bind t.neverCollides_identifier fun name hname => ?_
  have hsome : t.name.isSome := by
    unfold TypeDef.identifier at hname
    cases hraw : t.name with
    | none => simp [hraw] at hname
    | some _ => rfl
  cases howner : t.owner with
  | none => exact .pure _
  | some owner => exact (h owner hsome howner).bind fun _ _ => .pure _

/-- A reference is made anew, or it is known. -/
theorem permits_reference {t : TypeDef}
    (h : ∀ owner, t.name.isSome → t.owner = some owner → L.Permits before (r.locate owner)) :
    L.Permits before (r.reference t) := by
  refine Licence.Permits.get.bind fun s _ => ?_
  split
  · exact .pure _
  · refine (permits_newReference h).bind fun _ _ =>
      (Licence.Permits.modify ?_).bind fun _ _ => .pure _
    exact fun s _ => .of_eq rfl rfl rfl

/-- A reference by id. -/
theorem permits_referenceTo {id : Int} (h : r.Locates L before id) :
    L.Permits before (r.referenceTo id) :=
  .ofExcept_bind (r.graph.neverCollides_typeDef id) fun t ht =>
    permits_reference fun owner hname howner => h t owner ht hname howner

mutual

/-- **A shape is rendered by locating the owners of its names.** -/
theorem permits_renderShape :
    (shape : Shape) → (∀ id ∈ shape.names, r.Locates L before id) →
      L.Permits before (r.renderShape shape)
  | .unit, _ | .primitive _, _ => by
    unfold renderShape
    exact .pure _
  | .named id, h => by
    unfold renderShape
    exact permits_referenceTo (h id (List.mem_singleton_self id))
  | .handle resource, h => by
    unfold renderShape
    exact permits_remembered (permits_referenceTo (h resource (List.mem_singleton_self resource)))
  | .list element, h | .option element, h => by
    unfold renderShape
    exact permits_remembered ((permits_renderShape element h).bind fun _ _ => .pure _)
  | .aliasOf target, h => by
    unfold renderShape
    exact permits_remembered (permits_renderShape target h)
  | .result ok err, h => by
    unfold renderShape
    have hok := permits_renderShape ok fun id hid => h id (List.mem_append_left _ hid)
    have herr := permits_renderShape err fun id hid => h id (List.mem_append_right _ hid)
    exact permits_remembered (hok.bind fun _ _ => herr.bind fun _ _ => .pure _)
  | .tuple items, h => by
    unfold renderShape
    exact permits_remembered ((permits_renderShapes items h).bind fun _ _ => .pure _)

/-- Several shapes are rendered one after the other. -/
theorem permits_renderShapes :
    (shapes : List Shape) → (∀ id ∈ Shape.namesOfItems shapes, r.Locates L before id) →
      L.Permits before (r.renderShapes shapes)
  | [], _ => by
    unfold renderShapes
    exact .pure _
  | shape :: rest, h => by
    unfold renderShapes
    have hshape := permits_renderShape shape fun id hid => h id (List.mem_append_left _ hid)
    have hrest := permits_renderShapes rest fun id hid => h id (List.mem_append_right _ hid)
    exact hshape.bind fun _ _ => hrest.bind fun _ _ => .pure _

end

/-- **A reference is rendered by locating the owners of what it names.** -/
theorem permits_render {ref : TypeRef} (h : r.LocatesAll L before refs) (href : ref ∈ refs) :
    L.Permits before (r.render ref) := by
  refine .ofExcept_bind (r.graph.neverCollides_shapeWithin _ ref) fun shape hshape => ?_
  have hnames : ∀ id ∈ shape.names, r.Locates L before id :=
    fun id hid => h id ⟨ref, href, shape, hshape, hid⟩
  exact (permits_renderShape shape hnames).bind fun _ _ => .pure _

/-- An arm of a result is rendered. -/
theorem permits_renderOptional {arm : Option TypeRef} (h : r.LocatesAll L before refs)
    (harm : arm.toList ⊆ refs) : L.Permits before (r.renderOptional arm) := by
  cases arm with
  | none => exact .pure _
  | some ref => exact permits_render h (harm List.mem_cons_self)

/-- Several references are rendered as a tuple. -/
theorem permits_renderTuple (h : r.LocatesAll L before refs) :
    L.Permits before (r.renderTuple refs) :=
  (Licence.Permits.mapM fun _ href => permits_render h href).bind fun _ _ => .pure _

/-- The results of a function are rendered. -/
theorem permits_renderResults (h : r.LocatesAll L before refs) :
    L.Permits before (r.renderResults refs) := by
  match refs, h with
  | [], h => exact permits_renderTuple h
  | [result], h => exact permits_render h List.mem_cons_self
  | _ :: _ :: _, h => exact permits_renderTuple h

/-- **A composite is written out** by locating the owners of what it is made
of. -/
theorem permits_expand {t : TypeDef} (h : r.LocatesAll L before t.kind.refs) :
    L.Permits before (r.expand t) := by
  unfold expand
  cases hkind : t.kind with
  | list element | option element | aliasOf target =>
    rw [hkind] at h
    exact (permits_render h List.mem_cons_self).bind fun _ _ => .pure _
  | result ok err =>
    rw [hkind] at h
    exact (permits_renderOptional h (List.subset_append_left _ _)).bind fun _ _ =>
      (permits_renderOptional h (List.subset_append_right _ _)).bind fun _ _ => .pure _
  | tuple items =>
    rw [hkind] at h
    exact permits_renderTuple h
  | handle resource borrowed =>
    rw [hkind] at h
    refine (permits_referenceTo fun t owner ht hname howner => ?_).bind fun _ _ => .pure _
    have hnames : r.graph.Names [.defined resource] resource :=
      ⟨_, List.mem_singleton_self _, _, Graph.shapeOf_named ht hname,
        List.mem_singleton_self resource⟩
    exact h resource hnames t owner ht hname howner
  | _ => exact .throw trivial

/-! ## Functions -/

variable {scope : String} {site : Site}

/-- A member is emitted. -/
theorem permits_member {raw : String} {type : TypeRef}
    (hclaim : ∀ name, identifierOf .member raw = .ok name →
      L.claims before.claims ⟨scope, name, raw⟩)
    (h : r.LocatesAll L before refs) (htype : type ∈ refs) :
    L.Permits before (r.member scope raw type) :=
  (Licence.Permits.declare hclaim).bind fun _ _ => (permits_render h htype).bind fun _ _ => .pure _

/-- Parameters are emitted. -/
theorem permits_params {ps : List Param}
    (hclaim : ∀ p ∈ ps, ∀ name, identifierOf .member p.name = .ok name →
      L.claims before.claims ⟨scope, name, p.name⟩)
    (h : r.LocatesAll L before (ps.map Param.type)) : L.Permits before (r.params scope ps) :=
  .mapM fun p hp => permits_member (hclaim p hp) h (List.mem_map_of_mem hp)

/-- **A signature is emitted** by claiming its name, and its parameters below
it. -/
theorem permits_signature {f : Function} {ps : List Param}
    (hname : ∀ name, identifierOf .member f.name = .ok name →
      L.claims before.claims ⟨scope, name, f.name⟩)
    (hparam : ∀ name, identifierOf .member f.name = .ok name → ∀ p ∈ ps, ∀ identifier,
      identifierOf .member p.name = .ok identifier →
        L.claims before.claims ⟨parameterScope scope name, identifier, p.name⟩)
    (h : r.LocatesAll L before (ps.map Param.type ++ f.results)) :
    L.Permits before (r.signature scope f ps) := by
  refine Licence.Permits.declare_bind hname fun name after hderived hmore _ => ?_
  have hparams : L.Permits after (r.params (parameterScope scope name) ps) := by
    refine permits_params (fun p hp identifier hidentifier => ?_) ?_
    · exact L.claims_mono hmore.claims (hparam name hderived p hp identifier hidentifier)
    · exact (h.subset (List.subset_append_left _ _)).mono hmore
  have hresults : L.Permits after (r.renderResults f.results) :=
    permits_renderResults ((h.subset (List.subset_append_right _ _)).mono hmore)
  exact hparams.bind fun _ _ => hresults.bind fun _ _ => .pure _

end Renderer

/-! ## What is claimed for a declaration -/

/-- **The scopes below a declared type**, each for what belongs together. -/
inductive Part where
  /-- Fields, cases and flags, and the methods of a resource. -/
  | body
  /-- The constructors and static functions of a resource. -/
  | companion
  /-- The parameters of the methods that are called by an identifier. -/
  | methodParams (name : String)
  /-- The parameters of the static functions that are called by an
  identifier. -/
  | staticParams (name : String)
  /-- The parameters of the constructor at a position. -/
  | constructorParams (position : Nat)
  deriving DecidableEq

/-- The scope of a part, from that of the members of the type. -/
def Part.scope (scope : String) : Part → String
  | body => scope
  | companion => scope ++ "$"
  | methodParams name => parameterScope scope name
  | staticParams name => parameterScope (scope ++ "$") name
  | constructorParams position => scope ++ "$" ++ ".apply(" ++ toString position ++ ")"

/-- **What is claimed in the parts of a type**: identifiers, and the names that
they are claimed for. -/
inductive Graph.Fills (g : Graph) (t : TypeDef) : Part → String → String → Prop
  /-- A field of a record. -/
  | field {fields : List Field} {f : Field} {name : String} : t.kind = .record fields →
    f ∈ fields → identifierOf .member f.name = .ok name → Fills g t .body name f.name
  /-- A case of a variant. -/
  | case {cases : List Case} {c : Case} {name : String} : t.kind = .variant cases →
    c ∈ cases → identifierOf .type c.name = .ok name → Fills g t .body name c.name
  /-- A case of an enumeration. -/
  | label {labels : List Label} {l : Label} {name : String} : t.kind = .enumeration labels →
    l ∈ labels → identifierOf .type l.name = .ok name → Fills g t .body name l.name
  /-- A flag. -/
  | flag {flags : List String} {raw name : String} : t.kind = .flags flags → raw ∈ flags →
    identifierOf .member raw = .ok name → Fills g t .body name raw
  /-- What makes a value of flags. -/
  | apply {flags : List String} : t.kind = .flags flags → Fills g t .body "apply" "<apply>"
  /-- What takes a value of flags apart. -/
  | unapply {flags : List String} : t.kind = .flags flags → Fills g t .body "unapply" "<unapply>"
  /-- What disposes of a handle. -/
  | drop : t.kind = .resource → Fills g t .body "close" "<drop>"
  /-- A method. -/
  | method {fs : List Function} {f : Function} {r : Int} {name : String} : t.kind = .resource →
    g.resourceFunctions t.id = .ok fs → f ∈ fs → f.attachment = .method r →
    identifierOf .member f.name = .ok name → Fills g t .body name f.name
  /-- A parameter of a method. -/
  | methodParam {fs : List Function} {f : Function} {r : Int} {p : Param}
    {function name : String} : t.kind = .resource → g.resourceFunctions t.id = .ok fs → f ∈ fs →
    f.attachment = .method r → identifierOf .member f.name = .ok function →
    p ∈ Renderer.withoutReceiver f.params → identifierOf .member p.name = .ok name →
      Fills g t (.methodParams function) name p.name
  /-- A constructor. -/
  | constructor {fs : List Function} {f : Function} {r : Int} : t.kind = .resource →
    g.resourceFunctions t.id = .ok fs → f ∈ fs → f.attachment = .constructor r →
      Fills g t .companion "apply" "<constructor>"
  /-- A parameter of a constructor. -/
  | constructorParam {fs : List Function} {f : Function} {position : Nat} {r : Int} {p : Param}
    {name : String} : t.kind = .resource → g.resourceFunctions t.id = .ok fs →
    (f, position) ∈ fs.zipIdx → f.attachment = .constructor r → p ∈ f.params →
    identifierOf .member p.name = .ok name → Fills g t (.constructorParams position) name p.name
  /-- A static function. -/
  | static {fs : List Function} {f : Function} {r : Int} {name : String} : t.kind = .resource →
    g.resourceFunctions t.id = .ok fs → f ∈ fs → f.attachment = .static r →
    identifierOf .member f.name = .ok name → Fills g t .companion name f.name
  /-- A parameter of a static function. -/
  | staticParam {fs : List Function} {f : Function} {r : Int} {p : Param}
    {function name : String} : t.kind = .resource → g.resourceFunctions t.id = .ok fs → f ∈ fs →
    f.attachment = .static r → identifierOf .member f.name = .ok function → p ∈ f.params →
    identifierOf .member p.name = .ok name → Fills g t (.staticParams function) name p.name

namespace Licence

/-- **The claims of a function are allowed**: that of its name, and those of its
parameters below it. -/
structure AllowsFunction (L : Licence) (site : Site) (f : Function) (before : Session) : Prop where
  /-- The name may be claimed. -/
  name : ∀ {name}, identifierOf .member f.name = .ok name →
    L.claims before.claims ⟨site.scope, name, f.name⟩
  /-- The parameters may be claimed. -/
  param : ∀ {name p identifier}, identifierOf .member f.name = .ok name → p ∈ f.params →
    identifierOf .member p.name = .ok identifier →
      L.claims before.claims ⟨parameterScope site.scope name, identifier, p.name⟩

/-- **The claims of a type are allowed**: that of its name, and once the name is
held, what is claimed in its parts. -/
structure AllowsType (L : Licence) (g : Graph) (site : Site) (t : TypeDef) (before : Session) :
    Prop where
  /-- The name may be claimed. -/
  name : ∀ {raw name}, t.name = some raw → identifierOf .type raw = .ok name →
    L.claims before.claims ⟨site.scope, name, raw⟩
  /-- The parts may be filled. -/
  part : ∀ {raw name} {after : Session} {part identifier member}, t.name = some raw →
    identifierOf .type raw = .ok name → before.Advances after →
    after.claims.holder? site.scope name = some raw → g.Fills t part identifier member →
      L.claims after.claims ⟨part.scope (site.memberScope name), identifier, member⟩

end Licence

namespace Renderer

variable {r : Renderer} {L : Licence} {before : Session} {site : Site} {t : TypeDef}
  {scope : String}

/-- What may be claimed in the parts of a type whose members have a scope. -/
def AllowsParts (r : Renderer) (L : Licence) (before : Session) (t : TypeDef) (scope : String) :
    Prop :=
  ∀ {part : Part} {identifier member : String}, r.graph.Fills t part identifier member →
    L.claims before.claims ⟨part.scope scope, identifier, member⟩

/-- A record is emitted. -/
theorem permits_emitRecord {fields : List Field} (hkind : t.kind = .record fields)
    (hparts : r.AllowsParts L before t scope) (h : r.LocatesAll L before (r.graph.refsOf t)) :
    L.Permits before (r.emitRecord scope fields) := by
  rw [Graph.refsOf, hkind] at h
  refine .map (.mapM fun f hf => permits_member (fun name hname => ?_) h ?_) _
  · exact hparts (.field hkind hf hname)
  · exact List.mem_map_of_mem hf

/-- A variant is emitted. -/
theorem permits_emitVariant {cases : List Case} (hkind : t.kind = .variant cases)
    (hparts : r.AllowsParts L before t scope) (h : r.LocatesAll L before (r.graph.refsOf t)) :
    L.Permits before (r.emitVariant scope cases) := by
  rw [Graph.refsOf, hkind] at h
  refine .map (.mapM fun c hc => (Licence.Permits.declare fun name hname => ?_).bind
    fun name _ => ?_) _
  · exact hparts (.case hkind hc hname)
  · cases hpayload : c.payload with
    | none => exact .pure _
    | some payload =>
      have hmem : payload ∈ (TypeKind.variant cases).refs :=
        List.mem_filterMap.mpr ⟨c, hc, hpayload⟩
      exact (permits_render h hmem).bind fun _ _ => .pure _

/-- An enumeration is emitted. -/
theorem permits_emitEnumeration {labels : List Label} (hkind : t.kind = .enumeration labels)
    (hparts : r.AllowsParts L before t scope) : L.Permits before (emitEnumeration scope labels) :=
  .map (.mapM fun _ hl => (Licence.Permits.declare fun _ hname =>
    hparts (.label hkind hl hname)).bind fun _ _ => .pure _) _

/-- Flags are emitted. -/
theorem permits_emitFlags {storage : Storage} {names : List String} (hkind : t.kind = .flags names)
    (hparts : r.AllowsParts L before t scope) :
    L.Permits before (emitFlags scope storage names) := by
  refine (Licence.Permits.claim (hparts (.apply hkind))).bind fun _ _ =>
    (Licence.Permits.claim (hparts (.unapply hkind))).bind fun _ _ => .map (.mapM ?_) _
  exact fun name hmem => .declare fun _ hname => hparts (.flag hkind hmem hname)

/-- The functions of a resource are written with what the resource is. -/
theorem LocatesAll.of_resourceFunctions {fs : List Function} {f : Function}
    (h : r.LocatesAll L before (r.graph.refsOf t)) (hkind : t.kind = .resource)
    (hfunctions : r.graph.resourceFunctions t.id = .ok fs) (hf : f ∈ fs) :
    r.LocatesAll L before f.refs := by
  rw [Graph.refsOf, hkind, hfunctions] at h
  exact h.subset fun ref href => List.mem_flatMap.mpr ⟨f, hf, href⟩

/-- The methods of a resource are emitted. -/
theorem permits_emitMethods {fs : List Function} (hkind : t.kind = .resource)
    (hfunctions : r.graph.resourceFunctions t.id = .ok fs) (hparts : r.AllowsParts L before t scope)
    (h : r.LocatesAll L before (r.graph.refsOf t)) : L.Permits before (r.emitMethods scope fs) := by
  refine .filterMapM fun f hf => ?_
  cases hattachment : f.attachment with
  | method resource =>
    have hrefs := h.of_resourceFunctions hkind hfunctions hf
    simp only [Function.refs, Function.writtenParams, Function.writtenResults, hattachment] at hrefs
    refine .map (permits_signature (fun name hname => ?_) (fun name hname p hp x hx => ?_) hrefs) _
    · exact hparts (.method hkind hfunctions hf hattachment hname)
    · exact hparts (.methodParam hkind hfunctions hf hattachment hname hp hx)
  | freestanding | static _ | constructor _ => exact .pure _

/-- The companion of a resource is emitted. -/
theorem permits_emitCompanion {fs : List Function} (hkind : t.kind = .resource)
    (hfunctions : r.graph.resourceFunctions t.id = .ok fs) (hparts : r.AllowsParts L before t scope)
    (h : r.LocatesAll L before (r.graph.refsOf t)) :
    L.Permits before (r.emitCompanion (scope ++ "$") fs) := by
  refine .filterMapM fun entry hentry => ?_
  obtain ⟨f, position⟩ := entry
  have hf : f ∈ fs := List.fst_mem_of_mem_zipIdx hentry
  have hrefs := h.of_resourceFunctions hkind hfunctions hf
  cases hattachment : f.attachment with
  | constructor resource =>
    simp only [Function.refs, Function.writtenParams, Function.writtenResults, hattachment,
      List.append_nil] at hrefs
    simp only [hattachment]
    refine (Licence.Permits.claim ?_).bind fun _ _ =>
      (permits_params (fun p hp x hx => ?_) hrefs).bind fun _ _ => .pure _
    · exact hparts (.constructor hkind hfunctions hf hattachment)
    · exact hparts (.constructorParam hkind hfunctions hentry hattachment hp hx)
  | static resource =>
    simp only [Function.refs, Function.writtenParams, Function.writtenResults, hattachment] at hrefs
    simp only [hattachment]
    refine (permits_signature (fun name hname => ?_) (fun name hname p hp x hx => ?_) hrefs).bind
      fun _ _ => .pure _
    · exact hparts (.static hkind hfunctions hf hattachment hname)
    · exact hparts (.staticParam hkind hfunctions hf hattachment hname hp hx)
  | freestanding | method _ =>
    simp only [hattachment]
    exact .pure _

/-- What may be claimed in the parts of a type once its name is held. -/
theorem allowsParts_of_held {raw name : String} {after : Session}
    (hallows : L.AllowsType r.graph site t before) (hraw : t.name = some raw)
    (hname : identifierOf .type raw = .ok name) (hmore : before.Advances after)
    (hheld : after.claims.holder? site.scope name = some raw) :
    r.AllowsParts L after t (site.memberScope name) :=
  fun hfills => hallows.part hraw hname hmore hheld hfills

/-- **A resource is emitted.** -/
theorem permits_emitResource (hkind : t.kind = .resource)
    (hallows : L.AllowsType r.graph site t before)
    (h : r.LocatesAll L before (r.graph.refsOf t)) : L.Permits before (r.emitResource site t) := by
  unfold emitResource
  by_cases hdirection : site.direction = .exported
  · rw [if_pos hdirection]
    refine .throw_bind ?_
    trivial
  rw [if_neg hdirection]
  cases hraw : t.name with
  | none => exact .throw trivial
  | some raw =>
    refine Licence.Permits.declare_bind (fun name hname => hallows.name hraw hname)
      fun name after hname hmore hheld => ?_
    have hparts : r.AllowsParts L after t (site.memberScope name) :=
      allowsParts_of_held hallows hraw hname hmore hheld
    have hlocates := h.mono hmore
    refine (Licence.Permits.claim (hparts (.drop hkind))).bind fun _ _ => ?_
    refine .ofExcept_bind (r.graph.neverCollides_resourceFunctions t.id) fun fs hfunctions => ?_
    refine .ofExcept_bind site.neverCollides_argument fun _ _ => ?_
    exact (permits_emitMethods hkind hfunctions hparts hlocates).bind fun _ _ =>
      (permits_emitCompanion hkind hfunctions hparts hlocates).bind fun _ _ => .pure _

/-- A type is emitted by claiming its name, and then what its content needs. -/
theorem permits_declared {raw : String} {body : String → Emission TypeBody}
    (hallows : L.AllowsType r.graph site t before) (hraw : t.name = some raw)
    (h : r.LocatesAll L before (r.graph.refsOf t))
    (hbody : ∀ {name} {after : Session}, r.AllowsParts L after t (site.memberScope name) →
      r.LocatesAll L after (r.graph.refsOf t) → L.Permits after (body name)) :
    L.Permits before (do
      let name ← Emission.ofNaming (declare .type raw site.scope)
      return { id := t.id, name, docs := t.docs, body := ← body name : TypeDeclaration }) :=
  .declare_bind (fun _ hname => hallows.name hraw hname) fun _ _ hname hmore hheld =>
    (hbody (allowsParts_of_held hallows hraw hname hmore hheld) (h.mono hmore)).bind
      fun _ _ => .pure _

/-- **To emit a type is to make its claims and to locate the owners of what it
is written with.** -/
theorem permits_emitType (hallows : L.AllowsType r.graph site t before)
    (h : r.LocatesAll L before (r.graph.refsOf t)) : L.Permits before (r.emitType site t) := by
  unfold emitType
  cases hraw : t.name with
  | none => exact .throw trivial
  | some raw =>
    simp only
    cases hkind : t.kind with
    | record fields =>
      exact permits_declared hallows hraw h fun hparts h => permits_emitRecord hkind hparts h
    | variant cases =>
      exact permits_declared hallows hraw h fun hparts h => permits_emitVariant hkind hparts h
    | enumeration labels =>
      exact permits_declared hallows hraw h fun hparts _ => permits_emitEnumeration hkind hparts
    | flags names =>
      refine .ofExcept_bind neverCollides_ofCount fun storage _ => ?_
      exact permits_declared hallows hraw h fun hparts _ => permits_emitFlags hkind hparts
    | resource => exact permits_emitResource hkind hallows h
    | aliasOf _ | list _ | option _ | result _ _ | tuple _ | handle _ _ =>
      refine permits_declared hallows hraw h fun _ h => .map (permits_expand ?_) _
      simpa [Graph.refsOf, hkind] using h
    | future _ | stream _ => exact .throw trivial

/-- **To emit a function is to make its claims and to locate the owners of what
it is written with.** -/
theorem permits_emitFunction {f : Function} (hfree : f.isFreestanding = true)
    (hallows : L.AllowsFunction site f before) (h : r.LocatesAll L before f.refs) :
    L.Permits before (r.emitFunction site f) := by
  have hattachment : f.attachment = .freestanding := by simpa [Function.isFreestanding] using hfree
  simp only [Function.refs, Function.writtenParams, Function.writtenResults, hattachment] at h
  unfold emitFunction
  refine (permits_signature (fun _ hname => hallows.name hname)
    (fun _ hname _ hp _ hx => hallows.param hname hp hx) h).bind fun _ _ => ?_
  exact .ofExcept_bind site.neverCollides_argument fun _ _ => .pure _

end Renderer

end ComponentBindings
