import ComponentBindings.Proofs.Closed
import ComponentBindings.Proofs.Scopes
import ComponentBindings.Proofs.Signatures

/-!
# Where functions are declared

A function of an interface or a world is declared by one of two routes. One of
its own is declared where its owner is walked, among the functions of the
module. One that belongs to a resource is passed over there, and it is declared
when the resource is, which asks the owner of the resource for all functions
that belong to it. Nothing makes the two routes meet but that a function that
the first passes over is one that the second finds, and for this the resource
has to be a type of the interface that has the function, declared once
(`Graph.MembersAtHome`).

Then no function is lost and none comes twice (`functions_declared`). The
functions of a module are those of its interface or world, one by one and in
order; they are left out only where the interface is generated for its types.
And the declaration of a resource, which there is one of over all modules,
holds the functions that belong to the resource: methods in the trait, beside
one operation `close`, and the others in the companion.

All of this is about what is written. The functions of a module come out with
the texts of their declarations, and between the braces of a resource stand the
texts of its members and nothing else (`Module.WritesSections`,
`TypeDeclaration.WritesResource`).
-/

namespace ComponentBindings

/-! ## What is to be declared -/

/-- The function that an item of a world is. -/
def WorldItem.function? : WorldItem → Option Function
  | .function f => some f
  | _ => none

/-- The functions that a world lists in a direction, in order. -/
def World.functions (w : World) (direction : Direction) : List Function :=
  (w.items direction).filterMap fun (_, item) => item.function?

/-- **The members of interfaces are at home**: a function of an interface that
belongs to a resource belongs to one that the interface owns, and that it lists
once, as no other interface does. -/
def Graph.MembersAtHome (g : Graph) : Prop :=
  ∀ j i, g.interface j = .ok i → ∀ f ∈ i.functions.map Prod.snd, ∀ r,
    f.attachment.resource? = some r → g.OwnsType (.interface j) r ∧ g.ListedOnceBy j r

/-- **A declaration holds the given functions of a resource**: the methods in
its trait and the others in its companion, each group in order, and the trait
closes a handle in one way. -/
structure TypeDeclaration.Holds (g : Graph) (w : Wording) (functions : List Function)
    (d : TypeDeclaration) : Prop where
  /-- The members are those of the functions. -/
  members : ∃ identity raw methods companion, d.body = .resource identity raw methods companion ∧
    List.Forall₂ (fun f s => SignatureOf g w f (Renderer.withoutReceiver f.params) s)
      (functions.filter Function.isMethod) methods ∧
    List.Forall₂ (fun f member => CompanionOf g w f (some member))
      (functions.filter Function.isCompanion) companion
  /-- All members are written down, and one operation that disposes of a handle
  stands beside the methods. -/
  written : ∀ {identity raw methods companion},
    d.body = .resource identity raw methods companion →
      ∃ inTrait, d.WritesResource identity raw methods companion inTrait
  /-- No method is called like that operation. -/
  unlike : ∀ {identity raw methods companion},
    d.body = .resource identity raw methods companion → "close" ∉ methods.map Signature.name

/-! ## Members of a resource -/

section Members

variable {g : Graph} {w : Wording} {functions : List Function}

/-- The methods among the functions of a resource are declared in order. -/
theorem methods_of_methodOf {methods : List (Option Signature)}
    (h : List.Forall₂ (MethodOf g w) functions methods) :
    List.Forall₂ (fun f s => SignatureOf g w f (Renderer.withoutReceiver f.params) s)
      (functions.filter Function.isMethod) methods.reduceOption := by
  refine forall₂_filter_filterMap h (fun {f found s} hf hpick => ?_) fun {f found} hf hpick => ?_
  · cases hf with
    | method hattachment hs =>
      obtain rfl := Option.some.inj hpick
      exact ⟨by simp [Function.isMethod, hattachment], hs⟩
    | other _ => cases hpick
  · cases hf with
    | method _ _ => cases hpick
    | other hno =>
      unfold Function.isMethod
      split
      · next resource hattachment => exact absurd hattachment (hno resource)
      · rfl

/-- The other functions of a resource are declared in order. -/
theorem companion_of_companionOf {companion : List (Option CompanionMember)}
    (h : List.Forall₂ (CompanionOf g w) functions companion) :
    List.Forall₂ (fun f member => CompanionOf g w f (some member))
      (functions.filter Function.isCompanion) companion.reduceOption := by
  refine forall₂_filter_filterMap h (fun {f found member} hf hpick => ?_)
    fun {f found} hf hpick => ?_
  · obtain rfl : found = some member := hpick
    refine ⟨?_, hf⟩
    cases hf with
    | constructor hattachment _ => simp [Function.isCompanion, hattachment]
    | static hattachment _ => simp [Function.isCompanion, hattachment]
  · obtain rfl : found = none := hpick
    cases hf with
    | other hconstructor hstatic =>
      unfold Function.isCompanion
      split
      · next resource hattachment => exact absurd hattachment (hstatic resource)
      · next resource hattachment => exact absurd hattachment (hconstructor resource)
      · rfl

/-- No method whose name is held is called `close`. -/
theorem BodyHeld.close_not_mem {claims : Claims} {scope : String} {t : TypeDef}
    {identity : Argument} {raw : String} {methods : List Signature}
    {companion : List CompanionMember}
    (h : BodyHeld g claims scope t (.resource identity raw methods companion)) :
    "close" ∉ methods.map Signature.name := by
  cases h with
  | resource _ _ hclose hmethods _ => exact ComponentBindings.close_not_mem hmethods hclose

/-- **The declaration of a resource holds the functions of the resource.** -/
theorem DeclarationOf.holds {claims : Claims} {scope : String} {site : Site} {t : TypeDef}
    {d : TypeDeclaration} (h : DeclarationOf g w site t d)
    (hheld : DeclarationHeld g claims scope t d) (hkind : t.kind = .resource) :
    site.direction = .imported ∧
      ∃ functions, g.resourceFunctions t.id = .ok functions ∧ d.Holds g w functions := by
  have hbody := h.body
  cases hform : d.body with
  | resource identity raw methods companion =>
    rw [hform] at hbody
    cases hbody with
    | resource _ _ _ himported hfunctions hmethods hcompanion =>
      refine ⟨himported, _, hfunctions, ⟨_, _, _, _, hform, methods_of_methodOf hmethods,
        companion_of_companionOf hcompanion⟩, fun hd => ⟨_, d.writesResource hd⟩, fun hd => ?_⟩
      exact (hd ▸ hheld.body).close_not_mem
  | record _ | variant _ | flags _ _ | aliasOf _ =>
    have hresource := h.isResource_iff.mpr hkind
    rw [TypeDeclaration.isResource, hform] at hresource
    cases hresource

end Members

/-- The functions of a resource of an interface are those of the interface that
belong to it. -/
theorem Graph.resourceFunctions_of_owner {g : Graph} {j r : Int} {i : Interface}
    (howns : g.OwnsType (.interface j) r) (hi : g.interface j = .ok i) :
    g.resourceFunctions r
      = .ok ((i.functions.map Prod.snd).filter (·.attachment.resource? = some r)) := by
  obtain ⟨t, ht, howner⟩ := howns
  unfold resourceFunctions
  refine except_bind_eq_ok.mpr ⟨t, ht, ?_⟩
  simp only [howner]
  exact except_bind_eq_ok.mpr ⟨_, except_bind_eq_ok.mpr ⟨i, hi, rfl⟩, rfl⟩

/-! ## Functions of their own -/

namespace Assignment

variable {a : Assignment} {orderly : a.graph.Orderly} {s : Session}

/-- The functions that the items of one direction add to a module of the
world. -/
theorem flatMap_functionsOfItem {direction d : Direction} (items : List (Scalar × WorldItem)) :
    (items.map (d, ·)).flatMap (functionsOfItem direction)
      = if d = direction then
          (items.filterMap fun (_, item) => item.function?).filter Function.isFreestanding
        else [] := by
  induction items with
  | nil => simp
  | cons entry items ih =>
    obtain ⟨key, item⟩ := entry
    rw [List.map_cons, List.flatMap_cons, ih]
    by_cases hd : d = direction
    · cases item with
      | interface _ => simp [functionsOfItem, WorldItem.function?, hd]
      | type _ => simp [functionsOfItem, WorldItem.function?, hd]
      | function f =>
        cases hfree : f.isFreestanding <;>
          simp [functionsOfItem, WorldItem.function?, hd, hfree]
    · cases item <;> simp [functionsOfItem, hd]

/-- **The module of the world is to declare the functions that the world lists**
in the direction of the module. -/
theorem functions_world {direction : Direction} :
    (a.contentAfter a.items (.world direction)).functions
      = (a.world.functions direction).filter Function.isFreestanding := by
  show a.items.flatMap (functionsOfItem direction) = _
  unfold items World.functions World.items
  rw [List.flatMap_append, flatMap_functionsOfItem, flatMap_functionsOfItem]
  cases direction <;> simp

/-- A function of its own is declared in a module as it is to be. -/
def DeclaresFunction (a : Assignment) (m : Module) (f : Function) (d : FreeFunction) : Prop :=
  ∃ site, a.IsSite m.key m.location site ∧ FunctionOf a.graph (a.wording m.location) site f d

/-- **All functions are declared**, and each of them once. -/
structure DeclaresFunctions (a : Assignment) (ms : List Module) : Prop where
  /-- No module comes twice. -/
  nodup : (ms.map Module.key).Nodup
  /-- An interface that the world lists has a module in the direction. -/
  listed : ∀ {direction key j}, (key, .interface j) ∈ a.world.items direction →
    ∃ m ∈ ms, m.key = .interface j direction
  /-- The functions of that module are those of the interface, in order. -/
  interface : ∀ m ∈ ms, ∀ j direction, m.key = .interface j direction →
    a.lists direction j = true → ∃ i, a.graph.interface j = .ok i ∧
      List.Forall₂ (a.DeclaresFunction m)
        ((i.functions.map Prod.snd).filter Function.isFreestanding) m.functions
  /-- A module of an interface that the world does not list has none. -/
  unlisted : ∀ m ∈ ms, ∀ j direction, m.key = .interface j direction →
    a.lists direction j = false → m.functions = []
  /-- The world has a module for the functions that it lists. -/
  opened : ∀ direction, (a.world.functions direction).filter Function.isFreestanding ≠ [] →
    ∃ m ∈ ms, m.key = .world direction
  /-- The functions of that module are those of the world, in order. -/
  world : ∀ m ∈ ms, ∀ direction, m.key = .world direction →
    List.Forall₂ (a.DeclaresFunction m)
      ((a.world.functions direction).filter Function.isFreestanding) m.functions
  /-- What a module declares is in its source file. -/
  written : ∀ m ∈ ms, ∀ header, m.WritesSections header
  /-- A declaration of a resource holds the functions of that resource only. -/
  resources : ∀ m ∈ ms, ∀ d ∈ m.declarations, d.isResource = true → d ∈ m.resources ∧
    ∃ functions, a.graph.resourceFunctions d.id = .ok functions ∧
      d.Holds a.graph (a.wording m.location) functions
  /-- A function of a generated interface that belongs to a resource is in the
  only declaration of that resource, with all others that belong to it. -/
  members : ∀ m ∈ ms, ∀ j direction i, m.key = .interface j direction →
    a.graph.interface j = .ok i → ∀ f ∈ i.functions.map Prod.snd, ∀ r,
      f.attachment.resource? = some r → ∃ m' ∈ ms, m'.key = .interface j .imported ∧
        ∃ d ∈ m'.resources, (ms.flatMap Module.declarations).filter (·.id = r) = [d] ∧
          d.Holds a.graph (a.wording m'.location)
            ((i.functions.map Prod.snd).filter (·.attachment.resource? = some r))

namespace Finished

variable (h : a.Finished orderly s)
include h

/-- A module declares the functions of its content. -/
theorem functions_of_module {m : Module} (hm : m ∈ s.modules) :
    List.Forall₂ (a.DeclaresFunction m) (a.contentAfter a.items m.key).functions m.functions := by
  obtain ⟨ds, hds⟩ := h.declares_wording hm
  exact hds.functions

/-- The interface of a module is one of the graph. -/
theorem interface_of_module {m : Module} (hm : m ∈ s.modules) {j : Int} {direction : Direction}
    (hkey : m.key = .interface j direction) : ∃ i, a.graph.interface j = .ok i := by
  have hplaced := h.progress.kept.placed m hm
  rw [hkey] at hplaced
  obtain ⟨-, ⟨_, _, hcalled, -⟩, -⟩ := hplaced
  exact interface_of_calledAs hcalled

/-- **A declared resource holds its functions**, and it is imported. -/
theorem holds_of_declaration {m : Module} (hm : m ∈ s.modules) {d : TypeDeclaration}
    (hd : d ∈ m.declarations) (hresource : d.isResource = true) :
    (∃ site, a.IsSite m.key m.location site ∧ site.direction = .imported) ∧ d ∈ m.resources ∧
      ∃ functions, a.graph.resourceFunctions d.id = .ok functions ∧
        d.Holds a.graph (a.wording m.location) functions := by
  obtain ⟨ds, hds⟩ := h.declares_wording hm
  have hmem := hds.perm.mem_iff.mp hd
  obtain ⟨id, -, t, site, ht, hsite, hdecl⟩ := exists_of_mem_right hds.declared hmem
  obtain ⟨t', ht', hheld⟩ := (h.progress.kept.named m hm _ List.prefix_rfl).types d hd
  rw [hdecl.id, orderly.typeDef_id ht] at ht'
  obtain rfl : t = t' := Except.ok.inj (ht.symm.trans ht')
  obtain ⟨himported, functions, hfunctions, hholds⟩ :=
    hdecl.holds hheld (hdecl.isResource_iff.mp hresource)
  refine ⟨⟨site, hsite, himported⟩, ?_, functions, hdecl.id ▸ hfunctions, hholds⟩
  rw [hds.resources]
  exact List.mem_filter.mpr ⟨hmem, hresource⟩

/-- What is declared for a resource declares one. -/
theorem isResource_of_kind {m : Module} (hm : m ∈ s.modules) {d : TypeDeclaration}
    (hd : d ∈ m.declarations) (hkind : a.graph.HasResource d.id) : d.isResource = true := by
  obtain ⟨ds, hds⟩ := h.declares_wording hm
  obtain ⟨id, -, t, site, ht, -, hdecl⟩ :=
    exists_of_mem_right hds.declared (hds.perm.mem_iff.mp hd)
  obtain ⟨t', ht', hresource⟩ := hkind
  rw [hdecl.id, orderly.typeDef_id ht] at ht'
  obtain rfl : t = t' := Except.ok.inj (ht.symm.trans ht')
  exact hdecl.isResource_iff.mpr hresource

/-- **A function that belongs to a resource is in the only declaration of the
resource**, if the interface owns the resource and lists it once, as no other
does. -/
theorem member_of_module {m : Module} (hm : m ∈ s.modules) {j r : Int} {direction : Direction}
    {i : Interface} (hkey : m.key = .interface j direction) (hi : a.graph.interface j = .ok i)
    (howns : a.graph.OwnsType (.interface j) r) (hlisted : a.graph.ListedOnceBy j r)
    (hkind : a.graph.HasResource r) :
    ∃ m' ∈ s.modules, m'.key = .interface j .imported ∧
      ∃ d ∈ m'.resources, (s.modules.flatMap Module.declarations).filter (·.id = r) = [d] ∧
        d.Holds a.graph (a.wording m'.location)
          ((i.functions.map Prod.snd).filter (·.attachment.resource? = some r)) := by
  obtain ⟨honce, m', hm', d, hd, rfl, -⟩ :=
    h.declaredAt_interface howns hlisted (h.opened_of_module hm hkey)
  have hkey' : m'.key = .interface j (a.directionOf j) :=
    h.key_of_declares howns hlisted (List.mem_map_of_mem hm')
      ((h.declaresType_iff hm').mp ⟨d, hd, rfl⟩)
  obtain ⟨⟨site, hsite, himported⟩, hresources, functions, hfunctions, hholds⟩ :=
    h.holds_of_declaration hm' hd (h.isResource_of_kind hm' hd hkind)
  -- A resource is declared for import only, and this is the module that declares types.
  have hdirection : a.directionOf j = .imported := by
    rw [hkey'] at hsite
    exact hsite.2.1.symm.trans himported
  rw [a.graph.resourceFunctions_of_owner howns hi] at hfunctions
  obtain rfl := Except.ok.inj hfunctions
  exact ⟨m', hm', hdirection ▸ hkey', d, hresources,
    filter_eq_of_timesDeclared honce hm' hd, hholds⟩

/-- **The modules of a finished run declare all functions.** -/
theorem declaresFunctions (closed : a.graph.Closed) (hhome : a.graph.MembersAtHome) :
    a.DeclaresFunctions s.modules where
  nodup := h.progress.kept.nodup
  listed hitem := List.mem_map.mp (h.progress.listed (mem_items.mpr hitem))
  interface m hm j direction hkey hlists := by
    obtain ⟨i, hi⟩ := h.interface_of_module hm hkey
    have hfunctions := h.functions_of_module hm
    rw [hkey] at hfunctions
    simp only [contentAfter, interfaceContent, hi, hlists, if_true] at hfunctions
    exact ⟨i, hi, hfunctions⟩
  unlisted m hm j direction hkey hlists := by
    obtain ⟨i, hi⟩ := h.interface_of_module hm hkey
    have hfunctions := h.functions_of_module hm
    rw [hkey] at hfunctions
    simp only [contentAfter, interfaceContent, hi, hlists, Bool.false_eq_true, if_false,
      List.forall₂_nil_left_iff] at hfunctions
    exact hfunctions
  opened direction hsome := by
    refine List.mem_map.mp (?_ : .world direction ∈ s.opened)
    by_contra hclosed
    rw [← functions_world, h.progress.world hclosed] at hsome
    exact hsome rfl
  world m hm direction hkey := by
    have hfunctions := h.functions_of_module hm
    rw [hkey, functions_world] at hfunctions
    exact hfunctions
  written m _ header := m.writesSections header
  resources m hm d hd hresource := (h.holds_of_declaration hm hd hresource).2
  members m hm j direction i hkey hi f hf r hattachment := by
    obtain ⟨howns, hlisted⟩ := hhome j i hi f hf r hattachment
    obtain ⟨⟨key, f⟩, hentry, rfl⟩ := List.mem_map.mp hf
    have hfunction : a.graph.HasFunction f := .interface (Graph.mem_of_interface hi) hentry
    exact h.member_of_module hm hkey hi howns hlisted
      (closed.hasResource (.attachment hfunction hattachment))

end Finished

end Assignment

/-! ## Returned modules -/

/-- **No function is lost or comes twice.** When a run over a graph returns and
the members of its interfaces are at home, all functions of the interfaces that
the world lists, and of the world itself, are declared, each of them once and in
order; and so is whatever belongs to the resources of the generated
interfaces. -/
theorem functions_declared {document : Document} {g : Graph} {o : Options} {world : World}
    {ms : List Module} (hdocument : Graph.ofDocument document = .ok g) (hhome : g.MembersAtHome)
    (hworld : selectWorld g o = .ok world) (hrun : generateModules g o = .ok ms) :
    (Assignment.ofOptions g o world).DeclaresFunctions ms := by
  have orderly : g.Orderly := Graph.orderly_of_ofDocument hdocument
  obtain ⟨world', s, hworld', h, rfl⟩ := finished_of_generateModules orderly hrun
  obtain rfl : world = world' := Except.ok.inj (hworld.symm.trans hworld')
  exact h.declaresFunctions (Graph.closed_of_ofDocument hdocument) hhome

/-! ## A shop with a cart -/

/-- A world that imports an interface with a resource, one function of each
kind that belongs to it, and a function of its own. -/
def shopDocument : Document :=
  .object [
    (.text "packages", .list [.object [(.text "name", .string "a:b")]]),
    (.text "interfaces", .list [.object [(.text "name", .string "shop"), (.text "package", .int 0),
      (.text "types", .object [(.text "cart", .int 0)]),
      (.text "functions", .object [
        (.text "[constructor]cart", .object [(.text "name", .string "[constructor]cart"),
          (.text "kind", .object [(.text "constructor", .int 0)])]),
        (.text "[method]cart.pay", .object [(.text "name", .string "[method]cart.pay"),
          (.text "kind", .object [(.text "method", .int 0)])]),
        (.text "[static]cart.count", .object [(.text "name", .string "[static]cart.count"),
          (.text "kind", .object [(.text "static", .int 0)])]),
        (.text "hours", .object [(.text "name", .string "hours")])])]]),
    (.text "types", .list [.object [(.text "name", .string "cart"),
      (.text "owner", .object [(.text "interface", .int 0)]), (.text "kind", .string "resource")]]),
    (.text "worlds", .list [.object [(.text "name", .string "w"), (.text "package", .int 0),
      (.text "imports", .object [(.text "interface-0", .object [(.text "interface",
        .object [(.text "id", .int 0)])])])]])]

/-- The interface of that document. -/
def shopInterface : Interface where
  id := 0
  name := "shop"
  package := some 0
  types := [(.text "cart", 0)]
  functions := [(.text "[constructor]cart", ⟨"cart", .constructor 0, [], [], none⟩),
    (.text "[method]cart.pay", ⟨"pay", .method 0, [], [], none⟩),
    (.text "[static]cart.count", ⟨"count", .static 0, [], [], none⟩),
    (.text "hours", ⟨"hours", .freestanding, [], [], none⟩)]
  docs := none

/-- The world of that document. -/
def shopWorld : World where
  id := 0
  name := "w"
  package := some 0
  imports := [(.text "interface-0", .interface 0)]
  exports := []
  docs := none

/-- The graph of that document. -/
def shopGraph : Graph where
  packages := [⟨0, ⟨"a", "b", none⟩, [], [], none⟩]
  interfaces := [shopInterface]
  types := [⟨0, some "cart", .resource, some (.interface 0), none⟩]
  worlds := [shopWorld]

/-- The only resource of that graph, as it is declared. -/
def shopCart : TypeDeclaration := ⟨0, "Cart", none, .resource (.text "a:b/shop") "cart"
  [⟨"pay", "pay", [], ⟨.tuple [], "Unit"⟩, none⟩]
  [.constructor [] none, .static ⟨"count", "count", [], ⟨.tuple [], "Unit"⟩, none⟩]⟩

/-- The only module of that graph. -/
def shopModule : Module where
  key := .interface 0 .imported
  location := ⟨"componentmodel.a.b", "shop", ["componentmodel", "a", "b"], "shop.scala", .imported⟩
  docs := none
  resources := [shopCart]
  functions := [⟨.imported, .text "a:b/shop",
    ⟨"hours", "hours", [], ⟨.tuple [], "Unit"⟩, none⟩⟩]

/-- What a run over that graph assigns to modules. -/
def shopAssignment : Assignment := ⟨shopGraph, shopWorld, ⟨["componentmodel"]⟩⟩

/-- The session when the empty module has been opened. -/
def shopOpened : Session where
  claims := [⟨"componentmodel", "exports", "<exports>"⟩, ⟨"componentmodel", "a", "a"⟩,
    ⟨"componentmodel.a", "b", "b"⟩, ⟨"componentmodel.a.b", "shop", "shop"⟩,
    ⟨"componentmodel.a.b:identity", "shop", "a:b/shop"⟩]
  modules := [{ shopModule with resources := [], functions := [] }]

/-- The session when the resource has been declared. -/
def shopDeclared : Session where
  claims := shopOpened.claims ++ [⟨"componentmodel/a/b/shop.scala", "Cart", "cart"⟩,
    ⟨"componentmodel/a/b/shop.scala.Cart", "close", "<drop>"⟩,
    ⟨"componentmodel/a/b/shop.scala.Cart", "pay", "pay"⟩,
    ⟨"componentmodel/a/b/shop.scala.Cart$", "apply", "<constructor>"⟩,
    ⟨"componentmodel/a/b/shop.scala.Cart$", "count", "count"⟩]
  modules := [{ shopModule with functions := [] }]

/-- The session when the interface has been generated. -/
def shopSession : Session where
  claims := shopDeclared.claims ++ [⟨"componentmodel/a/b/shop.scala", "hours", "hours"⟩]
  modules := [shopModule]

/-- The place that the declarations of the interface are emitted into. -/
def shopSite : Site := ⟨.imported, .text "a:b/shop", shopModule.location.path⟩

/-- The resource is declared. -/
theorem emitType_shop :
    (shopAssignment.renderer shopModule.location).emitType shopSite shopGraph.types[0] shopOpened
      = .ok shopCart { shopDeclared with modules := shopOpened.modules } := rfl

/-- The functions of the interface are walked, and one of them is declared. -/
theorem generateFunctions_shop :
    (shopInterface.functions.forM fun (_, f) => shopAssignment.generateFunction
      shopModule.key shopModule.location shopSite f) shopDeclared = .ok () shopSession := rfl

/-- The interface is generated. -/
theorem generateItem_shop :
    shopAssignment.generateItem (.imported, .text "interface-0", .interface 0)
      { claims := [⟨"componentmodel", "exports", "<exports>"⟩] } = .ok () shopSession := by
  show shopAssignment.generateInterface 0 _ _ _ _ = _
  unfold Assignment.generateInterface
  refine bind_eq_ok.mpr ⟨_, _, rfl, ?_⟩
  rw [if_neg (by decide)]
  refine bind_eq_ok.mpr ⟨shopInterface, _, rfl, ?_⟩
  refine bind_eq_ok.mpr ⟨shopModule.location, { shopOpened with modules := [] }, rfl, ?_⟩
  refine bind_eq_ok.mpr ⟨shopSite.identity, _, rfl, bind_eq_ok.mpr ⟨(), _, rfl, ?_⟩⟩
  refine bind_eq_ok.mpr ⟨(), shopOpened, rfl, bind_eq_ok.mpr ⟨(), shopDeclared, ?_, ?_⟩⟩
  · refine bind_eq_ok.mpr ⟨shopModule.location, shopOpened, rfl, ?_⟩
    rw [if_pos rfl]
    refine bind_eq_ok.mpr ⟨(), shopDeclared, ?_, rfl⟩
    refine bind_eq_ok.mpr ⟨shopGraph.types[0], _, rfl, ?_⟩
    exact bind_eq_ok.mpr ⟨shopCart, _, emitType_shop, rfl⟩
  · exact generateFunctions_shop

/-- A run over that graph meets no fault. -/
theorem generateModules_shop : generateModules shopGraph {} = .ok [shopModule] :=
  generateModules_eq_ok (s := shopSession) rfl rfl
    (bind_eq_ok.mpr ⟨(), shopSession, generateItem_shop, rfl⟩) rfl

/-- The cart is a type of the only interface. -/
theorem membersAtHome_shop : shopGraph.MembersAtHome := by
  have honly : ∀ j i, shopGraph.interface j = .ok i → j = 0 ∧ i = shopInterface := by
    intro j i hi
    obtain ⟨hk, hj⟩ := getElem?_of_entryAt (entryAt_of_elim_eq_ok hi)
    rw [← hj]
    generalize j.toNat = k at hk
    match k, hk with
    | 0, hk => exact ⟨rfl, (Option.some.inj hk).symm⟩
  intro j i hi f hf r hattachment
  obtain ⟨rfl, rfl⟩ := honly j i hi
  have hall : ∀ f ∈ shopInterface.functions.map Prod.snd, ∀ r ∈ f.attachment.resource?, r = 0 := by
    decide
  obtain rfl := hall f hf r hattachment
  exact ⟨⟨_, rfl, rfl⟩, ⟨shopInterface, rfl, rfl⟩, fun j' i' hi' _ => (honly j' i' hi').1⟩

/-- The module of the shop declares the function of the shop, and the cart
declares the other three. -/
theorem functions_declared_shop :
    Graph.ofDocument shopDocument = .ok shopGraph ∧ shopGraph.MembersAtHome ∧
      selectWorld shopGraph {} = .ok shopWorld ∧
      generateModules shopGraph {} = .ok [shopModule] ∧
      (Assignment.ofOptions shopGraph {} shopWorld).DeclaresFunctions [shopModule] := by
  have hdocument : Graph.ofDocument shopDocument = .ok shopGraph := rfl
  have hworld : selectWorld shopGraph {} = .ok shopWorld := rfl
  exact ⟨hdocument, membersAtHome_shop, hworld, generateModules_shop,
    functions_declared hdocument membersAtHome_shop hworld generateModules_shop⟩

end ComponentBindings
