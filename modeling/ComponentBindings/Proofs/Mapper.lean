import ComponentBindings.Proofs.Filing

/-!
# The tables of a mapper cannot be seen

A mapper is a renderer together with the session in which it keeps its
tables. It answers requests one after another, in a module that can be
changed in between, and a request that ends in a fault leaves behind what it
had filed until then. `Mapper.answer_eq_fresh` says that nobody can tell: the
answer to a request is the one that a mapper without a past gives in the same
module.

What a request comes to is steady (`Placement.Steady`), which is to say that
its outcome is the same in all sessions that are in order, and that they stay
in order. The empty session is one of them, and that is all there is to it.
-/

namespace ComponentBindings

namespace Placement

variable {p : Placement} {scope : Option Location}

/-! ## Everything else a renderer does -/

/-- **An emission whose outcome nobody can influence**: it is the same in all
sessions that are in order, and they stay in order. -/
def Steady {α : Type} (p : Placement) (x : Emission α) : Prop :=
  ∃ expected, ∀ s, p.Tidy s → ∃ s', x s = outcome expected s' ∧ p.Tidy s'

section Steady

variable {α β : Type} {x : Emission α}

/-- What is settled is steady. -/
theorem Settles.steady {expected : Except Fault α} {small : Shape → Prop} {types : List Int}
    {shapes : List Shape} (hx : p.Settles scope x expected small types shapes) : p.Steady x := by
  refine ⟨expected, fun s hs => ?_⟩
  obtain ⟨s', hrun, hs', -⟩ := hx s hs
  exact ⟨s', hrun, hs'⟩

/-- A result that needs no session is steady. -/
theorem steady_ofExcept (x : Except Fault α) : p.Steady (Emission.ofExcept x) := by
  have hsettles : p.Settles none (Emission.ofExcept x) x (fun _ => True) [] [] := .ofExcept
  exact hsettles.steady

/-- A value is steady. -/
theorem steady_pure (a : α) : p.Steady (pure a) := steady_ofExcept (.ok a)

/-- **Steady steps make a steady chain.** -/
theorem Steady.bind (hx : p.Steady x) {f : α → Emission β} (hf : ∀ a, p.Steady (f a)) :
    p.Steady (x >>= f) := by
  obtain ⟨expected, hx⟩ := hx
  choose next hf using hf
  refine ⟨expected >>= next, fun s hs => ?_⟩
  obtain ⟨s', hrun, hs'⟩ := hx s hs
  cases expected with
  | error e => exact ⟨s', bind_eq_error.mpr (.inl hrun), hs'⟩
  | ok a =>
    obtain ⟨s'', hrun', hs''⟩ := hf a s' hs'
    refine ⟨s'', ?_, hs''⟩
    show EStateM.bind x f s = _
    unfold EStateM.bind
    rw [hrun]
    exact hrun'

/-- A steady result is mapped. -/
theorem Steady.map (hx : p.Steady x) (f : α → β) : p.Steady (f <$> x) := by
  have hsame : f <$> x = x >>= fun a => pure (f a) := map_eq_pure_bind f x
  rw [hsame]
  exact hx.bind fun a => steady_pure (f a)

/-- A list of steady items is steady. -/
theorem steady_mapM {f : α → Emission β} (hf : ∀ a, p.Steady (f a)) (xs : List α) :
    p.Steady (xs.mapM f) := by
  have hchains : KeptByChains fun (α : Type) (x : Emission α) => p.Steady x :=
    ⟨steady_pure, fun hx hf => hx.bind hf⟩
  exact hchains.mapM fun a _ => hf a

variable (hnoted : ∀ o s, p.noted o s)

include hnoted

/-- A reference by id is steady. -/
theorem steady_referenceTo (id : Int) : p.Steady ((p.renderer scope).referenceTo id) := by
  have hsettles : p.Settles scope ((p.renderer scope).referenceTo id) (p.referenceText scope id)
      (fun _ => True) [id] [] := settles_referenceTo hnoted id
  exact hsettles.steady

/-- Rendering a type is steady. -/
theorem steady_render (ref : TypeRef) : p.Steady ((p.renderer scope).render ref) := by
  unfold Renderer.render
  exact (steady_ofExcept _).bind fun shape =>
    (settles_renderShape hnoted shape).steady.bind fun text => steady_pure _

/-- Rendering an arm of a result is steady. -/
theorem steady_renderOptional (ref : Option TypeRef) :
    p.Steady ((p.renderer scope).renderOptional ref) := by
  cases ref with
  | none => exact steady_pure _
  | some ref => exact steady_render hnoted ref

/-- Rendering a tuple is steady. -/
theorem steady_renderTuple (items : List TypeRef) :
    p.Steady ((p.renderer scope).renderTuple items) := by
  unfold Renderer.renderTuple
  exact (steady_mapM (fun ref => steady_render hnoted ref) items).bind fun es => steady_pure _

/-- Rendering the results of a function is steady. -/
theorem steady_renderResults (results : List TypeRef) :
    p.Steady ((p.renderer scope).renderResults results) := by
  match results with
  | [] => exact steady_renderTuple hnoted []
  | [result] => exact steady_render hnoted result
  | first :: second :: rest => exact steady_renderTuple hnoted (first :: second :: rest)

/-- Expanding a named composite is steady. -/
theorem steady_expand (t : TypeDef) : p.Steady ((p.renderer scope).expand t) := by
  unfold Renderer.expand
  cases t.kind with
  | list element => exact (steady_render hnoted element).bind fun e => steady_pure _
  | option element => exact (steady_render hnoted element).bind fun e => steady_pure _
  | result ok err =>
    exact (steady_renderOptional hnoted ok).bind fun ok =>
      (steady_renderOptional hnoted err).bind fun err => steady_pure _
  | tuple items => exact steady_renderTuple hnoted items
  | handle resource _ =>
    exact (steady_referenceTo hnoted resource).bind fun text => steady_pure _
  | aliasOf target => exact (steady_render hnoted target).bind fun e => steady_pure _
  | _ => exact steady_ofExcept (.error (.notComposite t.id))

end Steady

end Placement

/-! ## Mappers -/

/-- What a mapper can be asked. -/
inductive Request where
  /-- To write in another module from now on. -/
  | setScope (scope : Option Location)
  /-- A type reference. -/
  | render (ref : TypeRef)
  /-- A type reference that may be absent. -/
  | renderOptional (ref : Option TypeRef)
  /-- Several type references as a tuple. -/
  | renderTuple (items : List TypeRef)
  /-- The results of a function. -/
  | renderResults (results : List TypeRef)
  /-- A reference to a named type. -/
  | reference (id : Int)
  /-- What a named composite stands for. -/
  | expand (id : Int)
  /-- The shape of a type reference that may be absent. -/
  | shape (ref : Option TypeRef)

/-- What a mapper answers. -/
inductive Answer where
  /-- Nothing. -/
  | done
  /-- The text of a type expression. -/
  | text (text : String)
  /-- A shape, and whether its text depends on the module. -/
  | shape (shape : Shape) (depends : Bool)
  deriving DecidableEq

/-- **A mapper**: a graph and the places of its owners, the module that is
being written, and the tables. -/
structure Mapper where
  /-- The graph. -/
  graph : Graph
  /-- The module that declares the types of an owner. -/
  place : TypeOwner → Except Fault Location
  /-- The module that is being written. -/
  scope : Option Location := none
  /-- The session that holds the tables. -/
  session : Session := {}

namespace Mapper

open Placement

/-- The renderer of a mapper. -/
def renderer (m : Mapper) : Renderer where
  graph := m.graph
  locate owner := Emission.ofExcept (m.place owner)
  scope := m.scope

/-- What a mapper does for a request. -/
def perform (m : Mapper) : Request → Emission Answer
  | .setScope _ => pure .done
  | .render ref => (fun e => .text e.text) <$> m.renderer.render ref
  | .renderOptional ref => (fun e => .text e.text) <$> m.renderer.renderOptional ref
  | .renderTuple items => (fun e => .text e.text) <$> m.renderer.renderTuple items
  | .renderResults results => (fun e => .text e.text) <$> m.renderer.renderResults results
  | .reference id => .text <$> m.renderer.referenceTo id
  | .expand id => do
    let t ← Emission.ofExcept (m.graph.typeDef id)
    return .text (← m.renderer.expand t).text
  | .shape ref => do
    let shape ← Emission.ofExcept (m.graph.shapeOfOptional ref)
    return .shape shape shape.isScoped

/-- The module that is written after a request. -/
def scopeAfter (m : Mapper) : Request → Option Location
  | .setScope scope => scope
  | _ => m.scope

/-- The answer to a request, or the fault in its place. -/
def answer (m : Mapper) (request : Request) : Except Fault Answer :=
  match m.perform request m.session with
  | .ok a _ => .ok a
  | .error fault _ => .error fault

/-- The mapper after a request, which keeps what was filed before a fault. -/
def after (m : Mapper) (request : Request) : Mapper where
  graph := m.graph
  place := m.place
  scope := m.scopeAfter request
  session := match m.perform request m.session with
    | .ok _ s => s
    | .error _ s => s

/-- The mapper after several requests. -/
def afterAll (m : Mapper) (requests : List Request) : Mapper := requests.foldl after m

/-- A mapper without a past that writes in the same module. -/
def fresh (m : Mapper) : Mapper := { m with session := {} }

/-- **A table that tells nothing new**: it holds every composite once, under
the module it stands in if its text depends on that, with the text that a
mapper without a past gives it, and after its parts. -/
structure Transparent (m : Mapper) : Prop where
  /-- There is one entry for a module and a shape. -/
  nodup : (m.session.instantiations.map Prod.fst).Nodup
  /-- What does not depend on a module is filed under none. -/
  unscoped : ∀ {k shape text}, ((k, shape), text) ∈ m.session.instantiations →
    shape.isScoped = false → k = none
  /-- The text is the one that is rendered without a past, for any type of the
  shape, in the module if the text depends on it and in any module
  otherwise. -/
  rendered : ∀ {k shape text}, ((k, shape), text) ∈ m.session.instantiations →
    ∀ scope ref, m.graph.shapeOf ref = .ok shape → (shape.isScoped = true → scope = k) →
      (Mapper.mk m.graph m.place scope {}).answer (.render ref) = .ok (.text text)
  /-- The composites among the parts have been entered before. -/
  parts : ∀ {before k shape text}, before ++ [((k, shape), text)] <+: m.session.instantiations →
    ∀ part ∈ shape.parts, part.isComposite = true →
      (if part.isScoped then k else none, part) ∈ before.map Prod.fst

/-- The placement of a mapper. -/
def placement (m : Mapper) (orderly : m.graph.Orderly) : Placement :=
  .ofPlaces m.graph orderly m.place

/-- **Every request is steady.** -/
theorem steady_perform (m : Mapper) (orderly : m.graph.Orderly) (request : Request) :
    (m.placement orderly).Steady (m.perform request) := by
  have hnoted : ∀ o s, (m.placement orderly).noted o s := fun _ _ => trivial
  cases request with
  | setScope scope => exact steady_pure _
  | render ref => exact (steady_render hnoted ref).map _
  | renderOptional ref => exact (steady_renderOptional hnoted ref).map _
  | renderTuple items => exact (steady_renderTuple hnoted items).map _
  | renderResults results => exact (steady_renderResults hnoted results).map _
  | reference id => exact (steady_referenceTo hnoted id).map _
  | expand id =>
    exact (steady_ofExcept _).bind fun t => (steady_expand hnoted t).bind fun e => steady_pure _
  | shape ref => exact (steady_ofExcept _).bind fun shape => steady_pure _

/-- **The past does not matter** to a mapper whose session is in order. -/
theorem answer_eq_fresh {m : Mapper} (orderly : m.graph.Orderly)
    (hm : (m.placement orderly).Tidy m.session) (request : Request) :
    m.answer request = m.fresh.answer request := by
  obtain ⟨expected, hperform⟩ := m.steady_perform orderly request
  obtain ⟨s, hrun, -⟩ := hperform m.session hm
  obtain ⟨s', hrun', -⟩ := hperform {} .start
  have hsame : m.fresh.perform request = m.perform request := by cases request <;> rfl
  unfold answer
  rw [hsame, hrun]
  change _ = (match m.perform request {} with
    | .ok a _ => .ok a
    | .error fault _ => .error fault : Except Fault Answer)
  rw [hrun']
  cases expected <;> rfl

/-- A request leaves the session in order. -/
theorem tidy_after {m : Mapper} (orderly : m.graph.Orderly)
    (hm : (m.placement orderly).Tidy m.session) (request : Request) :
    (m.placement orderly).Tidy (m.after request).session := by
  obtain ⟨expected, hperform⟩ := m.steady_perform orderly request
  obtain ⟨s, hrun, hs⟩ := hperform m.session hm
  unfold after
  rw [hrun]
  cases expected <;> exact hs

/-- **Requests leave the session in order**, and graph and places alone. -/
theorem tidy_afterAll {g : Graph} (orderly : g.Orderly) (place : TypeOwner → Except Fault Location)
    (requests : List Request) (m : Mapper) (hgraph : m.graph = g) (hplace : m.place = place)
    (hm : (Placement.ofPlaces g orderly place).Tidy m.session) :
    (m.afterAll requests).graph = g ∧ (m.afterAll requests).place = place ∧
      (Placement.ofPlaces g orderly place).Tidy (m.afterAll requests).session := by
  induction requests generalizing m with
  | nil => exact ⟨hgraph, hplace, hm⟩
  | cons request requests ih =>
    subst hgraph hplace
    exact ih (m.after request) rfl rfl (tidy_after orderly hm request)

/-- What a mapper without a past renders: the spelling of the shape. -/
theorem answer_render_of_shapeOf {g : Graph} (orderly : g.Orderly)
    (place : TypeOwner → Except Fault Location) (scope : Option Location) {ref : TypeRef}
    {shape : Shape} {text : String} (hshape : g.shapeOf ref = .ok shape)
    (htext : shape.spell ((Placement.ofPlaces g orderly place).referenceText scope) = .ok text) :
    (Mapper.mk g place scope {}).answer (.render ref) = .ok (.text text) := by
  have hnoted : ∀ o s, (Placement.ofPlaces g orderly place).noted o s := fun _ _ => trivial
  have hsettles : (Placement.ofPlaces g orderly place).Settles scope
      (((Placement.ofPlaces g orderly place).renderer scope).renderShape shape) _ _ _ _ :=
    settles_renderShape hnoted shape
  obtain ⟨s, hrun, -⟩ := hsettles {} .start
  rw [htext] at hrun
  have hrender : ((Placement.ofPlaces g orderly place).renderer scope).render ref {}
      = .ok ⟨shape, text⟩ s := by
    refine bind_eq_ok.mpr ⟨shape, {}, Emission.ofExcept_eq_ok.mpr ⟨hshape, rfl⟩, ?_⟩
    exact bind_eq_ok.mpr ⟨text, s, hrun, rfl⟩
  have hperform : (Mapper.mk g place scope {}).perform (.render ref) {} = .ok (.text text) s :=
    map_eq_ok.mpr ⟨⟨shape, text⟩, hrender, rfl⟩
  unfold answer
  rw [hperform]

/-- **A mapper whose session is in order has a table that tells nothing
new.** -/
theorem transparent_of_tidy {m : Mapper} (orderly : m.graph.Orderly)
    (hm : (m.placement orderly).Tidy m.session) : m.Transparent where
  nodup := hm.filed.nodup
  unscoped := by
    intro k shape text hmem hunscoped
    have hkey := hm.filed.keyed hmem
    simpa [tableKey, hunscoped, eq_comm] using hkey
  rendered := by
    intro k shape text hmem scope ref hshape hscope
    -- The entry is the one that is found under the key.
    have hkey : tableKey scope shape = (k, shape) := by
      rw [← hm.filed.keyed hmem]
      unfold tableKey
      cases hscoped : shape.isScoped with
      | false => rfl
      | true => rw [hscope hscoped]
    have hfound : m.session.instantiations.lookup (tableKey scope shape) = some text := by
      rw [hkey]
      exact hm.filed.lookup_of_mem hmem
    refine answer_render_of_shapeOf orderly m.place scope hshape ?_
    exact hm.coherent.spell_eq_ok (hm.coherent.instantiations hfound)
  parts := fun hbefore part hpart hcomposite => hm.filed.parts hbefore part hpart hcomposite

/-- **The tables of a mapper cannot be seen.** Whatever a mapper has been
asked before, and whether or not it could answer, the answer to a request is
the one that it would give without a past, and its table of composites tells
nothing new. -/
theorem invisible_tables {document : Document} {g : Graph} (hg : Graph.ofDocument document = .ok g)
    (place : TypeOwner → Except Fault Location) (requests : List Request) :
    let m := (Mapper.mk g place none {}).afterAll requests
    (∀ request, m.answer request = (Mapper.mk g place m.scope {}).answer request) ∧
      m.Transparent := by
  have orderly := Graph.orderly_of_ofDocument hg
  obtain ⟨hgraph, hplace, htidy⟩ :=
    tidy_afterAll orderly place requests (Mapper.mk g place none {}) rfl rfl .start
  generalize (Mapper.mk g place none {}).afterAll requests = m at hgraph hplace htidy ⊢
  subst hgraph hplace
  exact ⟨answer_eq_fresh orderly htidy, transparent_of_tidy orderly htidy⟩

/-- An interface with a record, and a list of such records. -/
def recordListDocument : Document :=
  .object [
    (.text "packages", .list [.object [(.text "name", .string "a:b")]]),
    (.text "interfaces", .list [.object
      [(.text "name", .string "shop"), (.text "package", .int 0),
        (.text "types", .object [(.text "item", .int 0)])]]),
    (.text "types", .list [
      .object [(.text "name", .string "item"),
        (.text "owner", .object [(.text "interface", .int 0)]),
        (.text "kind", .object [(.text "record", .object [(.text "fields", .list [])])])],
      .object [(.text "kind", .object [(.text "list", .int 0)])]])]

/-- The graph of that document. -/
def recordListGraph : Graph where
  packages := [⟨0, ⟨"a", "b", none⟩, [], [], none⟩]
  interfaces := [⟨0, some "shop", some 0, [(.text "item", 0)], [], none⟩]
  types := [⟨0, some "item", .record [], some (.interface 0), none⟩,
    ⟨1, none, .list (.defined 0), none, none⟩]
  worlds := []

/-- The place of the interface. -/
def shopPlace : Location := ⟨"a.b", "shop", ["a", "b"], "shop.scala", .imported⟩

/-- A mapper for that graph. -/
def recordListMapper (scope : Option Location) (session : Session) : Mapper :=
  ⟨recordListGraph, fun _ => .ok shopPlace, scope, session⟩

/-- The list has the shape of a list of records. -/
theorem shapeOf_recordList : recordListGraph.shapeOf (.defined 1) = .ok (.list (.named 0)) := by
  unfold Graph.shapeOf
  rw [Graph.shapeWithin]
  show (recordListGraph.shapeWithin _ (.defined 0) >>= fun element =>
    pure (Shape.list element)) = _
  rw [Graph.shapeWithin]
  rfl

/-- The list is rendered by its shape. -/
theorem perform_recordList (scope : Option Location) (session : Session) :
    (recordListMapper scope session).perform (.render (.defined 1)) =
      (fun e => .text e.text) <$> (do
        let text ← (recordListMapper scope session).renderer.renderShape (.list (.named 0))
        return ⟨.list (.named 0), text⟩ : Emission TypeExpr) := by
  unfold perform Renderer.render
  show _ <$> (Emission.ofExcept (recordListGraph.shapeOf (.defined 1)) >>= _) = _
  rw [shapeOf_recordList]
  rfl

/-- The list is filed once for each module it is written in. -/
theorem instantiations_recordList :
    ((recordListMapper none {}).afterAll
      [.render (.defined 1), .reference 7, .setScope (some shopPlace),
        .render (.defined 1)]).session.instantiations =
      [((none, .list (.named 0)), "Array[a.b.shop.Item]"),
        ((some shopPlace, .list (.named 0)), "Array[Item]")] := by
  have hfirst : (recordListMapper none {}).after (.render (.defined 1)) = recordListMapper none {
      references := [((0, none), "a.b.shop.Item")]
      instantiations := [((none, .list (.named 0)), "Array[a.b.shop.Item]")] } := by
    unfold after
    rw [perform_recordList]
    rfl
  show (((((recordListMapper none {}).after _).after (.reference 7)).after
    (.setScope (some shopPlace))).after _).session.instantiations = _
  rw [hfirst]
  -- What failed has left nothing, so only the module has changed.
  show ((recordListMapper (some shopPlace) _).after _).session.instantiations = _
  unfold after
  rw [perform_recordList]
  rfl

/-- The list is written twice, in no module and in that of its items, with a
request in between that fails; both texts are on file, and each is what a
mapper without a past writes. -/
theorem invisible_tables_recordList :
    Graph.ofDocument recordListDocument = .ok recordListGraph ∧
    let m := (Mapper.mk recordListGraph (fun _ => .ok shopPlace) none {}).afterAll
      [.render (.defined 1), .reference 7, .setScope (some shopPlace), .render (.defined 1)]
    m.session.instantiations =
      [((none, .list (.named 0)), "Array[a.b.shop.Item]"),
        ((some shopPlace, .list (.named 0)), "Array[Item]")] ∧
    (∀ request, m.answer request =
      (Mapper.mk recordListGraph (fun _ => .ok shopPlace) m.scope {}).answer request) ∧
    m.Transparent := by
  have hg : Graph.ofDocument recordListDocument = .ok recordListGraph := by rfl
  exact ⟨hg, instantiations_recordList, invisible_tables hg (fun _ => .ok shopPlace)
    [.render (.defined 1), .reference 7, .setScope (some shopPlace), .render (.defined 1)]⟩

end Mapper

end ComponentBindings
