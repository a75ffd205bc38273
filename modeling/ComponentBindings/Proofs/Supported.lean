import ComponentBindings.Proofs.Functions
import ComponentBindings.Proofs.Worklist

/-!
# What is not supported

Resources cannot be exported, values that arrive later have no
representation, and a record or the like has to have a name. Each of these is
refused in a place of its own: resources before the module of an interface is
opened, item by item for the world, and when they are declared; futures and
streams when they are declared and when they are written out; types without a
name when they are written out. `Assignment.Supported` says what the refusals
come to once modules are returned.

What is written out is followed through the types without a name
(`Graph.Reaches`), since these have their parts in their shapes. A type with a
name ends the way: it is referred to, and nobody looks at what it is. That
is fine if it is declared, for then it has been looked at there. But a type of
the world may be passed over, and then a future comes to be referred to that
was never refused.
-/

namespace ComponentBindings

/-- Whether the values of a kind arrive later. -/
def TypeKind.isDelayed : TypeKind → Bool
  | .future _ | .stream _ => true
  | _ => false

/-! ## What is reached through types without a name -/

namespace Graph

/-- **A reference that is reached** from another one through types that have no
name. -/
inductive Reaches (g : Graph) : TypeRef → TypeRef → Prop
  /-- A reference reaches itself. -/
  | refl (ref : TypeRef) : Reaches g ref ref
  /-- A type without a name reaches what its parts reach. -/
  | part {id : Int} {t : TypeDef} {part ref : TypeRef} : g.typeDef id = .ok t → t.name = none →
    part ∈ t.kind.refs → Reaches g part ref → Reaches g (.defined id) ref

variable {g : Graph} {ref ref' : TypeRef} {enterable : List Int} {shape : Shape}

/-- **What is reached from a reference has a shape within its shape**, as long as
only types with a name are referred to. -/
theorem Reaches.exists_shape (h : g.Reaches ref ref')
    (hshape : g.shapeWithin enterable ref = .ok shape)
    (hnamed : ∀ id ∈ shape.names, ∃ t, g.typeDef id = .ok t ∧ t.name.isSome) :
    ∃ enterable' shape', g.shapeWithin enterable' ref' = .ok shape' ∧
      shape'.names ⊆ shape.names := by
  induction h generalizing enterable shape with
  | refl ref => exact ⟨enterable, shape, hshape, List.Subset.refl _⟩
  | part ht hname hpart _ ih =>
    obtain ⟨inner, hinner, hnames⟩ :=
      exists_shape_of_mem_refs (expansionWithin_of_shapeWithin ht hname hshape) hnamed hpart
    obtain ⟨enterable', shape', hshape', hsub⟩ := ih hinner fun id hid => hnamed id (hnames hid)
    exact ⟨enterable', shape', hshape', List.Subset.trans hsub hnames⟩

end Graph

namespace Assignment

variable {a : Assignment} {orderly : a.graph.Orderly} {s : Session} {m : Module}
  {ref : TypeRef} {id : Int} {t : TypeDef}

/-- **A reference that is emitted** in a module: a field, a case or the target of
a type that is declared there, a parameter or a result of a function of a
resource, or one of a function of its own. -/
inductive Emits (a : Assignment) (m : Module) : TypeRef → Prop
  /-- A declared type is written with it. -/
  | type {d : TypeDeclaration} {t : TypeDef} {ref : TypeRef} : d ∈ m.declarations →
    a.graph.typeDef d.id = .ok t → ref ∈ a.graph.refsOf t → Emits a m ref
  /-- A declared function is written with it. -/
  | function {d : FreeFunction} {f : Function} {ref : TypeRef} : d ∈ m.functions →
    a.DeclaresFunction m f d → ref ∈ f.params.map Param.type ++ f.results → Emits a m ref

/-- **Modules that nothing unsupported has slipped into**, as far as it was looked
at: a future or a stream is only reached if it has a name and nobody declares
it. -/
structure Supported (a : Assignment) (ms : List Module) : Prop where
  /-- An exported interface lists no resource. -/
  exportedInterface : ∀ j i, a.lists .exported j = true → a.graph.interface j = .ok i →
    ∀ id ∈ i.types.map Prod.snd, ¬ a.graph.HasResource id
  /-- An exported type is no resource. -/
  exportedType : ∀ id, a.ListsType .exported id → ¬ a.graph.HasResource id
  /-- An export module declares no resource. -/
  resources : ∀ m ∈ ms, m.location.direction = .exported → m.resources = []
  /-- No future or stream is declared. -/
  declared : ∀ m ∈ ms, ∀ id t, m.DeclaresType id → a.graph.typeDef id = .ok t →
    t.kind.isDelayed = false
  /-- What is reached without a name is written out. -/
  unnamed : ∀ m ∈ ms, ∀ ref id t, a.Emits m ref → a.graph.Reaches ref (.defined id) →
    a.graph.typeDef id = .ok t → t.name = none → t.kind.isComposite = true
  /-- A future or a stream that is reached is declared by no module, and not
  listed by the interface that owns it. -/
  delayed : ∀ m ∈ ms, ∀ ref id t, a.Emits m ref → a.graph.Reaches ref (.defined id) →
    a.graph.typeDef id = .ok t → t.kind.isDelayed = true →
      (∀ m' ∈ ms, ¬ m'.DeclaresType id) ∧ ∀ j i, t.owner = some (.interface j) →
        a.graph.interface j = .ok i → id ∉ i.types.map Prod.snd

/-! ## Resources that are exported -/

/-- **Exported interfaces list no resource** when all items have been walked. -/
theorem Walked.exportedInterface (h : a.Walked orderly a.items s) {j : Int} {i : Interface}
    (hlists : a.lists .exported j = true) (hi : a.graph.interface j = .ok i) :
    ∀ id ∈ i.types.map Prod.snd, ¬ a.graph.HasResource id := by
  obtain ⟨key, hitem⟩ := lists_iff.mp hlists
  exact (h.opened _ (h.progress.listed hitem)).1 i hi

/-- An exported type that the world lists has been walked without being
refused. -/
theorem exportedType_of_items {claims : Claims} {u : Unit}
    (hrun : a.items.forM a.generateItem { claims } = .ok u s) (hlists : a.ListsType .exported id) :
    ¬ a.graph.HasResource id := by
  obtain ⟨key, hitem⟩ := hlists
  have hall := forM_keeps (I := fun done _ => ∀ key id, (.exported, key, .type id) ∈ done →
    ¬ a.graph.HasResource id) ?_ ?_ hrun
  · exact hall key id (mem_items.mpr hitem)
  · intro done item s₁ _ s₂ _ hdone hstep key id hmem
    cases List.mem_append.mp hmem with
    | inl hmem => exact hdone key id hmem
    | inr hmem =>
      obtain rfl := List.mem_singleton.mp hmem
      obtain ⟨t, _, ht, hrest⟩ := bind_eq_ok.mp hstep
      obtain ⟨_, _, hrefused, -⟩ := bind_eq_ok.mp hrest
      exact not_hasResource_of_refuseExported (Emission.ofExcept_eq_ok.mp hrefused).1 id
        (List.mem_singleton_self id)
  · exact fun _ _ hmem => absurd hmem List.not_mem_nil

namespace Finished

variable (h : a.Finished orderly s)
include h

/-- A module is in the direction of what is emitted into it. -/
theorem direction_of_site (hm : m ∈ s.modules) {site : Site}
    (hsite : a.IsSite m.key m.location site) : m.location.direction = site.direction := by
  have hplaced := h.progress.kept.placed m hm
  obtain ⟨-, hsite⟩ := hsite
  cases hkey : m.key with
  | interface j direction =>
    rw [hkey] at hplaced hsite
    exact (direction_of_interfacePlace hplaced.1).trans hsite.1.symm
  | world direction =>
    rw [hkey] at hplaced hsite
    exact (Layout.direction_of_worldPlace hplaced.1).trans hsite.1.symm

/-- **An export module declares no resource.** -/
theorem resources_exported (hm : m ∈ s.modules) (hdirection : m.location.direction = .exported) :
    m.resources = [] := by
  rw [List.eq_nil_iff_forall_not_mem]
  intro d hd
  obtain ⟨ds, hds⟩ := h.declares_wording hm
  have hresource : d.isResource = true := by
    rw [hds.resources] at hd
    exact (List.mem_filter.mp hd).2
  obtain ⟨⟨site, hsite, himported⟩, -⟩ :=
    h.holds_of_declaration hm (List.mem_append_right _ hd) hresource
  rw [h.direction_of_site hm hsite, himported] at hdirection
  cases hdirection

/-- **No future or stream is declared.** -/
theorem not_isDelayed (hm : m ∈ s.modules) (hid : m.DeclaresType id)
    (ht : a.graph.typeDef id = .ok t) : t.kind.isDelayed = false := by
  obtain ⟨ds, hds⟩ := h.declares_wording hm
  have hmem := (h.declaresType_iff hm).mp hid
  obtain ⟨d, -, t', site, ht', -, hdecl⟩ := exists_of_mem_left hds.declared hmem
  obtain rfl := Except.ok.inj (ht.symm.trans ht')
  have hbody := hdecl.body
  generalize d.body = body at hbody
  cases hbody with
  | record hkind _ | variant hkind _ | enumeration hkind _ | flags hkind _ _ =>
    rw [hkind]
    rfl
  | resource hkind _ _ _ _ _ _ =>
    rw [hkind]
    rfl
  | aliasOf _ hwrites =>
    have hexpansion := hwrites.1
    rw [Graph.expansion_eq] at hexpansion
    have hcomposite := Graph.isComposite_of_expansionWithin hexpansion
    cases hkind : t.kind <;> simp_all [TypeKind.isComposite, TypeKind.isDelayed]

/-! ## What is reached -/

/-- What is emitted in a module stands in it. -/
theorem written_of_emits (hm : m ∈ s.modules) (hemits : a.Emits m ref) :
    ref.WrittenIn a.graph (a.wording m.location) m.expressions := by
  cases hemits with
  | type hd ht href =>
    exact h.written hm ref (refsOf_subset_refsAt ((h.declaresType_iff hm).mp ⟨_, hd, rfl⟩) ht href)
  | @function d f _ hd hdeclares href =>
    obtain ⟨site, -, hfunction⟩ := hdeclares
    refine (hfunction.signature.written ref href).mono fun e he => ?_
    exact List.mem_append_right _ (List.mem_flatMap.mpr ⟨d, hd, he⟩)

/-- **What is reached from a module has a shape**, and the module mentions what
that names. -/
theorem exists_shape_of_reaches (hm : m ∈ s.modules) (hemits : a.Emits m ref) {ref' : TypeRef}
    (hreaches : a.graph.Reaches ref ref') :
    ∃ enterable shape, a.graph.shapeWithin enterable ref' = .ok shape ∧
      ∀ id ∈ shape.names, m.Mentions id := by
  obtain ⟨shape, hshape, e, he, hnames, hspell⟩ := h.written_of_emits hm hemits
  obtain ⟨text, htext⟩ := Option.isSome_iff_exists.mp hspell
  obtain ⟨enterable, inner, hinner, hsub⟩ := hreaches.exists_shape hshape fun id hid =>
    named_of_wording (Shape.isSome_of_spell _ htext id (hnames hid))
  exact ⟨enterable, inner, hinner, fun id hid => ⟨e, he, hnames (hsub hid)⟩⟩

/-- **What is reached without a name is a composite.** -/
theorem isComposite_of_reaches (hm : m ∈ s.modules) (hemits : a.Emits m ref)
    (hreaches : a.graph.Reaches ref (.defined id)) (ht : a.graph.typeDef id = .ok t)
    (hname : t.name = none) : t.kind.isComposite = true := by
  obtain ⟨enterable, shape, hshape, -⟩ := h.exists_shape_of_reaches hm hemits hreaches
  exact Graph.isComposite_of_expansionWithin (Graph.expansionWithin_of_shapeWithin ht hname hshape)

/-- What is reached with a name is mentioned. -/
theorem mentions_of_reaches (hm : m ∈ s.modules) (hemits : a.Emits m ref)
    (hreaches : a.graph.Reaches ref (.defined id)) (ht : a.graph.typeDef id = .ok t)
    (hname : t.name.isSome = true) : m.Mentions id := by
  obtain ⟨enterable, shape, hshape, hmentions⟩ := h.exists_shape_of_reaches hm hemits hreaches
  rw [Graph.shapeWithin_named ht hname] at hshape
  obtain rfl := Except.ok.inj hshape
  refine hmentions id ?_
  rw [Shape.names]
  exact List.mem_singleton_self id

/-- A type that is mentioned is declared by its interface, if that lists it. -/
theorem declares_of_mentions (hm : m ∈ s.modules) (hmentions : m.Mentions id)
    (ht : a.graph.typeDef id = .ok t) {j : Int} {i : Interface}
    (howner : t.owner = some (.interface j)) (hi : a.graph.interface j = .ok i)
    (hlisted : id ∈ i.types.map Prod.snd) : ∃ m' ∈ s.modules, m'.DeclaresType id := by
  have hopen := h.opened ((h.mentioned hm hmentions).2 t _ ht howner)
  obtain ⟨m', hm', hkey⟩ := List.mem_map.mp hopen
  refine ⟨m', hm', (h.declaresType_iff hm').mpr ?_⟩
  rw [hkey]
  exact mem_types_interface.mpr ⟨rfl, i, hi, hlisted⟩

end Finished

end Assignment

/-- **What of unsupported features gets into modules.** When a run over a graph
returns, no resource is exported, no future or stream is declared, and what is
reached from a type that is written out is supported, except for futures and
streams that have a name and that nobody declares. -/
theorem supported_of_generateModules {document : Document} {g : Graph} {o : Options}
    {world : World} {ms : List Module} (hdocument : Graph.ofDocument document = .ok g)
    (hworld : selectWorld g o = .ok world) (hrun : generateModules g o = .ok ms) :
    (Assignment.ofOptions g o world).Supported ms := by
  have orderly : (Assignment.ofOptions g o world).graph.Orderly :=
    Graph.orderly_of_ofDocument hdocument
  obtain ⟨world', claims, s', hworld', hstart, hgenerate, rfl⟩ := generateModules_iff.mp hrun
  obtain rfl : world = world' := Except.ok.inj (hworld.symm.trans hworld')
  obtain ⟨_, s, hitems, -⟩ := bind_eq_ok.mp hgenerate
  have hexports := Layout.holdsExports_of_start hstart
  have hwalked : (Assignment.ofOptions g o world).Walked orderly _ s :=
    Assignment.walked_of_items (mem_of_selectWorld hworld) hexports hitems
  have h : (Assignment.ofOptions g o world).Finished orderly s' :=
    Assignment.finished_of_generateAll hexports hgenerate
  refine ⟨fun j i hlists hi => hwalked.exportedInterface hlists hi,
    fun id hlists => Assignment.exportedType_of_items hitems hlists,
    fun m hm hdirection => h.resources_exported hm hdirection,
    fun m hm id t hid ht => h.not_isDelayed hm hid ht,
    fun m hm ref id t hemits hreaches ht hname =>
      h.isComposite_of_reaches hm hemits hreaches ht hname,
    fun m hm ref id t hemits hreaches ht hdelayed => ?_⟩
  have hname : t.name.isSome = true := by
    by_contra hnone
    have hcomposite := h.isComposite_of_reaches hm hemits hreaches ht (by simpa using hnone)
    cases hkind : t.kind <;> simp_all [TypeKind.isComposite, TypeKind.isDelayed]
  have hundeclared : ∀ m' ∈ s'.modules, ¬ m'.DeclaresType id := by
    intro m' hm' hid
    rw [h.not_isDelayed hm' hid ht] at hdelayed
    cases hdelayed
  refine ⟨hundeclared, fun j i howner hi hlisted => ?_⟩
  have hmentions := h.mentions_of_reaches hm hemits hreaches ht hname
  obtain ⟨m', hm', hid⟩ := h.declares_of_mentions hm hmentions ht howner hi hlisted
  exact hundeclared m' hm' hid

/-! ## A future that is passed over -/

/-- A world that imports a record with a field whose type it exports, and which
is a future. -/
def laterDocument : Document :=
  .object [
    (.text "packages", .list [.object [(.text "name", .string "a:b")]]),
    (.text "types", .list [
      .object [(.text "name", .string "p"), (.text "owner", .object [(.text "world", .int 0)]),
        (.text "kind", .object [(.text "record", .object [(.text "fields", .list [
          .object [(.text "name", .string "f"), (.text "type", .int 1)]])])])],
      .object [(.text "name", .string "q"), (.text "owner", .object [(.text "world", .int 0)]),
        (.text "kind", .object [(.text "future", .string "u8")])]]),
    (.text "worlds", .list [.object [(.text "name", .string "w"), (.text "package", .int 0),
      (.text "imports", .object [(.text "p", .object [(.text "type", .int 0)])]),
      (.text "exports", .object [(.text "q", .object [(.text "type", .int 1)])])]])]

/-- The record of that document. -/
def laterRecord : TypeDef :=
  ⟨0, some "p", .record [⟨"f", .defined 1, none⟩], some (.world 0), none⟩

/-- The future of that document. -/
def laterFuture : TypeDef :=
  ⟨1, some "q", .future (some (.primitive .u8)), some (.world 0), none⟩

/-- The graph of that document. -/
def laterGraph : Graph where
  packages := [⟨0, ⟨"a", "b", none⟩, [], [], none⟩]
  interfaces := []
  types := [laterRecord, laterFuture]
  worlds := [halvesWorld]

/-- The declaration of the record. -/
def laterDeclaration : TypeDeclaration := ⟨0, "P", none, .record [⟨"f", ⟨.named 1, "Q"⟩⟩]⟩

/-- The only module of that graph. -/
def laterModule : Module := { halvesModule with types := [laterDeclaration] }

/-- What a run over that graph assigns to modules. -/
def laterAssignment : Assignment := ⟨laterGraph, halvesWorld, ⟨["componentmodel"]⟩⟩

/-- The session when the module of the world has been opened. -/
def laterOpened : Session where
  claims := [⟨"componentmodel", "exports", "<exports>"⟩, ⟨"componentmodel", "w", "<world w>"⟩]
  modules := [{ laterModule with types := [] }]

/-- The session when the record has been declared. -/
def laterSession : Session where
  claims := laterOpened.claims ++ [⟨"componentmodel/w/package.scala", "P", "p"⟩,
    ⟨"componentmodel/w/package.scala.P", "f", "f"⟩]
  references := [((1, some laterModule.location), "Q")]
  modules := [laterModule]

/-- The field of the record is written by a reference to the future. -/
theorem render_later : (laterAssignment.renderer laterModule.location).render (.defined 1) = (do
    let text ← (laterAssignment.renderer laterModule.location).referenceTo 1
    return ⟨.named 1, text⟩) :=
  Renderer.render_named (t := laterFuture) rfl rfl

/-- The record is declared. -/
theorem emitType_later : (laterAssignment.renderer laterModule.location).emitType
    ⟨.imported, worldIdentity, laterModule.location.path⟩ laterRecord laterOpened
      = .ok laterDeclaration { laterSession with modules := laterOpened.modules } := by
  unfold Renderer.emitType
  simp only [laterRecord, Renderer.emitRecord, Renderer.member, List.mapM_cons, List.mapM_nil,
    render_later]
  rfl

/-- The run returns the module with the record. -/
theorem generateModules_later : generateModules laterGraph {} = .ok [laterModule] := by
  have hrecord : laterAssignment.generateItem (.imported, .text "p", .type 0)
      { claims := [⟨"componentmodel", "exports", "<exports>"⟩] } = .ok () laterSession := by
    refine bind_eq_ok.mpr ⟨laterRecord, _, rfl, bind_eq_ok.mpr ⟨(), _, rfl, ?_⟩⟩
    refine bind_eq_ok.mpr ⟨true, { laterOpened with modules := [] }, rfl, ?_⟩
    rw [if_pos rfl]
    refine bind_eq_ok.mpr ⟨laterModule.location, laterOpened, rfl, ?_⟩
    refine bind_eq_ok.mpr ⟨laterRecord, _, rfl, ?_⟩
    exact bind_eq_ok.mpr ⟨laterDeclaration, _, emitType_later, rfl⟩
  have hfuture : laterAssignment.generateItem (.exported, .text "q", .type 1) laterSession
      = .ok () laterSession := rfl
  have hitems : laterAssignment.items.forM laterAssignment.generateItem
      { claims := [⟨"componentmodel", "exports", "<exports>"⟩] } = .ok () laterSession :=
    bind_eq_ok.mpr ⟨(), _, hrecord, bind_eq_ok.mpr ⟨(), _, hfuture, rfl⟩⟩
  exact generateModules_eq_ok (s := laterSession) rfl rfl hitems rfl

/-- The field of the record is emitted. -/
theorem emits_later : laterAssignment.Emits laterModule (.defined 1) :=
  .type (d := laterDeclaration) (.head _) rfl (.head _)

/-- The module is supported, and the future that is reached is not declared
in it. -/
theorem supported_of_generateModules_later :
    Graph.ofDocument laterDocument = .ok laterGraph ∧
      selectWorld laterGraph {} = .ok halvesWorld ∧
      generateModules laterGraph {} = .ok [laterModule] ∧
      laterAssignment.Supported [laterModule] ∧ ¬ laterModule.DeclaresType 1 := by
  have hdocument : Graph.ofDocument laterDocument = .ok laterGraph := rfl
  have hworld : selectWorld laterGraph {} = .ok halvesWorld := rfl
  have hsupported := supported_of_generateModules hdocument hworld generateModules_later
  refine ⟨hdocument, hworld, generateModules_later, hsupported, ?_⟩
  exact (hsupported.delayed laterModule (.head _) (.defined 1) 1 laterFuture emits_later (.refl _)
    rfl rfl).1 laterModule (.head _)

/-- **A future slips into a field.** -/
theorem reaches_future : ∃ document g o world ms,
    Graph.ofDocument document = .ok g ∧ selectWorld g o = .ok world ∧
      generateModules g o = .ok ms ∧ ∃ m ∈ ms, ∃ ref id t,
        (Assignment.ofOptions g o world).Emits m ref ∧ g.Reaches ref (.defined id) ∧
          g.typeDef id = .ok t ∧ t.kind.isDelayed = true := by
  refine ⟨laterDocument, laterGraph, {}, halvesWorld, [laterModule], rfl, rfl,
    generateModules_later, laterModule, .head _, .defined 1, 1, laterFuture, ?_, .refl _, rfl, rfl⟩
  exact emits_later

end ComponentBindings
