import ComponentBindings.Proofs.LastLoop
import ComponentBindings.Proofs.Vouched
import ComponentBindings.Proofs.WorldTypes

/-!
# What a run ends with

A run over a graph that has been read from JSON ends with files or with a
fault of generation, whatever the options are (`Graph.outcome_of_ofDocument`).
It never looks up an id that is not there: the ids that it starts from are
those of the selected world, and from there on every id comes from an entry of
the graph.

The proof walks the run once more, function by function, and asks of each only
what it can fail with. Two things are carried along. An interface that is
generated is one of the graph, also where it was noted on the way and is taken
up at the end. And the identity of a site is a text, because the keys of the
world are; this is where it matters that the document is JSON.
-/

namespace ComponentBindings

/-- **An assignment that a run may be trusted with**: its graph is in order
and has no loose ends, and its world is one of the graph, with texts for keys. -/
structure Assignment.Sound (a : Assignment) : Prop where
  /-- Entries know their positions. -/
  orderly : a.graph.Orderly
  /-- No id is loose. -/
  closed : a.graph.Closed
  /-- The world is one of the graph. -/
  mem_worlds : a.world ∈ a.graph.worlds
  /-- The items are listed under texts. -/
  keys : a.world.KeysAreTexts

namespace Assignment

variable {a : Assignment}

/-- An item that is walked is an import or an export. -/
theorem mem_imports_append_exports {direction : Direction} {key : Scalar} {item : WorldItem}
    (h : (direction, key, item) ∈ a.items) : (key, item) ∈ a.world.imports ++ a.world.exports := by
  cases direction with
  | imported => exact List.mem_append_left _ (mem_items.mp h)
  | exported => exact List.mem_append_right _ (mem_items.mp h)

/-- The module of the world is located. -/
theorem failsWithin_worldLocation (direction : Direction) :
    FailsWithin (a.worldLocation direction) :=
  .ofNaming (a.layout.failsWithin_worldLocation a.world.name direction)

/-- The module of the world is opened. -/
theorem failsWithin_worldModule (direction : Direction) : FailsWithin (a.worldModule direction) :=
  (failsWithin_worldLocation direction).bind fun _ _ =>
    (FailsWithin.modify _).bind fun _ _ => .pure _

/-- Types that are there are refused as they should be. -/
theorem ends_refuseExported {direction : Direction} {identity : Scalar} {types : List Int}
    (htypes : ∀ id ∈ types, a.graph.Has .types id) :
    Ends (fun _ => True) (a.refuseExported direction identity types) := by
  cases direction with
  | imported => trivial
  | exported =>
    refine EndsIn.forM fun id hid => (Graph.ends_typeDef (htypes id hid)).bind fun t _ => ?_
    unfold refuseResource
    split <;> trivial

namespace Sound

variable (h : a.Sound)

include h

/-! ## What the items of the world refer to -/

/-- The interfaces among the items are there. -/
theorem has_of_interface {direction : Direction} {key : Scalar} {id : Int}
    (hitem : (direction, key, .interface id) ∈ a.items) : a.graph.Has .interfaces id :=
  h.closed.has (.worldInterface h.mem_worlds (mem_imports_append_exports hitem))

/-- The types among the items are there. -/
theorem has_of_type {direction : Direction} {key : Scalar} {id : Int}
    (hitem : (direction, key, .type id) ∈ a.items) : a.graph.Has .types id :=
  h.closed.has (.worldType h.mem_worlds (mem_imports_append_exports hitem))

/-- A key of the world is a text. -/
theorem isText_of_mem {direction : Direction} {key : Scalar} {item : WorldItem}
    (hitem : (direction, key, item) ∈ a.items) : key.isText = true := by
  obtain ⟨value, rfl⟩ := h.keys _ (mem_imports_append_exports hitem)
  rfl

/-- The key of an interface is a text. -/
theorem isText_of_keyOf {id : Int} {key : Scalar} (hkey : a.keyOf id = some key) :
    key.isText = true := by
  obtain ⟨⟨direction, key', item⟩, hfound, rfl⟩ := Option.map_eq_some_iff.mp hkey
  exact h.isText_of_mem (List.mem_of_find?_eq_some hfound)

/-- An interface is called by a text if by anything: its name or a key of the
world. -/
theorem called_eq (i : Interface) (id : Int) :
    (i.givenName.map Scalar.text <|> a.keyOf id).getD .null = .null ∨
      ∃ name, (i.givenName.map Scalar.text <|> a.keyOf id).getD .null = .text name := by
  cases i.givenName with
  | some name => exact .inr ⟨name, rfl⟩
  | none =>
    cases hkey : a.keyOf id with
    | none => exact .inl rfl
    | some key =>
      obtain ⟨value, rfl⟩ := Scalar.exists_text_of_isText (h.isText_of_keyOf hkey)
      exact .inr ⟨value, rfl⟩

/-! ## Locating -/

/-- The module of an interface is located. -/
theorem failsWithin_interfaceLocation {id : Int} (hid : a.graph.Has .interfaces id)
    (direction : Direction) : FailsWithin (a.interfaceLocation id direction) := by
  refine FailsWithin.ofExcept_bind (Graph.ends_interface hid) fun i _ => ?_
  have hname := h.called_eq i id
  dsimp only at hname ⊢
  split
  · exact FailsWithin.throw_bind (e := .unnamedInterface id) trivial
  refine FailsWithin.ofExcept_bind (h.closed.ends_packageNameOf hid) fun package _ => ?_
  obtain hnull | ⟨name, htext⟩ := hname
  · contradiction
  · rw [htext]
    exact .ofNaming (a.layout.failsWithin_interfaceLocation package name direction)

/-- The direction of the types of a world is found. -/
theorem ends_ownedDirection (id : Int) (world : World) :
    Ends (fun _ => True) (a.ownedDirection id world) := by
  unfold ownedDirection
  split
  swap
  · trivial
  refine EndsIn.bind (Q := fun _ => True) (EndsIn.filterMapM fun ⟨typeId, direction⟩ hlisted => ?_)
    fun _ _ => trivial
  have hid : a.graph.Has .types typeId := by
    rcases mem_worldTypes.mp hlisted with ⟨-, key, hkey⟩ | ⟨-, ⟨key, hkey⟩, -⟩
    · exact h.has_of_type (mem_items.mpr hkey)
    · exact h.has_of_type (mem_items.mpr hkey)
  exact (Graph.ends_typeDef hid).bind fun _ _ => trivial

/-- **An owner that is there is located.** -/
theorem failsWithin_locate {owner : TypeOwner} (howner : a.graph.HasOwner owner) :
    FailsWithin (a.locate owner) := by
  cases owner with
  | interface id =>
    have hlocated : ∀ direction, FailsWithin (a.interfaceLocation id direction) :=
      h.failsWithin_interfaceLocation howner
    show FailsWithin (if a.lists .imported id then _ else if a.lists .exported id then _ else _)
    split
    · exact hlocated .imported
    split
    · exact hlocated .exported
    · exact (FailsWithin.modify _).bind fun _ _ => hlocated .imported
  | world id =>
    exact FailsWithin.ofExcept_bind (Graph.ends_world howner) fun world _ =>
      FailsWithin.ofExcept_bind (h.ends_ownedDirection id world) fun direction _ =>
        .ofNaming (a.layout.failsWithin_worldLocation world.name direction)

/-- The renderer of a module is one to be trusted. -/
theorem renderer_sound (location : Location) : (a.renderer location).Sound where
  orderly := h.orderly
  closed := h.closed
  locate := h.failsWithin_locate

/-! ## Generating -/

/-- A type is declared in its module. -/
theorem failsWithin_generateType {key : ModuleKey} {location : Location} {site : Site}
    (hsite : site.identity.isText = true) {id : Int} (hid : a.graph.Has .types id) :
    FailsWithin (a.generateType key location site id) := by
  refine FailsWithin.ofExcept_bind (Graph.ends_typeDef hid) fun t ht => ?_
  have htype : a.graph.typeDef t.id = .ok t := by rwa [h.orderly.typeDef_id ht]
  exact ((h.renderer_sound location).failsWithin_emitType hsite htype).bind fun _ _ =>
    FailsWithin.modify _

/-- A function is declared in its module, or left to its resource. -/
theorem failsWithin_generateFunction {key : ModuleKey} {location : Location} {site : Site}
    (hsite : site.identity.isText = true) {f : Function} (hf : a.graph.HasFunction f) :
    FailsWithin (a.generateFunction key location site f) := by
  unfold generateFunction
  split
  · exact ((h.renderer_sound location).failsWithin_emitFunction hsite hf).bind fun _ _ =>
      FailsWithin.modify _
  · exact .pure _

/-- The types of an interface are declared where they belong. -/
theorem failsWithin_generateTypes {i : Interface} {id : Int} {key : ModuleKey}
    {location : Location} {site : Site} (hid : a.graph.Has .interfaces id)
    (hsite : site.identity.isText = true) (htypes : ∀ entry ∈ i.types, a.graph.Has .types entry.2) :
    FailsWithin (a.generateTypes i id key location site) := by
  have howner : a.graph.HasOwner (.interface id) := hid
  refine (h.failsWithin_locate howner).bind fun _ _ => ?_
  split
  · exact FailsWithin.forM fun entry hentry =>
      h.failsWithin_generateType hsite (htypes entry hentry)
  · exact .pure _

/-- **An interface is generated.** -/
theorem failsWithin_generateInterface {id : Int} (hid : a.graph.Has .interfaces id)
    {key : Option Scalar} (hkey : ∀ k, key = some k → k.isText = true) (direction : Direction)
    (typesOnly : Bool) : FailsWithin (a.generateInterface id key direction typesOnly) := by
  refine FailsWithin.get.bind fun s _ => ?_
  split
  · exact .pure _
  refine FailsWithin.ofExcept_bind (Graph.ends_interface hid) fun i hi => ?_
  refine (h.failsWithin_interfaceLocation hid direction).bind fun location _ => ?_
  have hkey' : ∀ k, (key.filter (!·.isEmpty) <|> a.keyOf id) = some k → k.isText = true := by
    intro k hk
    cases hgiven : key.filter (!·.isEmpty) with
    | none =>
      rw [hgiven] at hk
      exact h.isText_of_keyOf hk
    | some k' =>
      rw [hgiven] at hk
      obtain rfl := Option.some.inj hk
      exact hkey k' (Option.filter_eq_some_iff.mp hgiven).1
  refine FailsWithin.ofExcept_bind (h.closed.ends_identityOf hid hkey') fun identity hidentity => ?_
  have htypes : ∀ entry ∈ i.types, a.graph.Has .types entry.2 :=
    fun _ hentry => h.closed.has (.interfaceType hi hentry)
  refine FailsWithin.ofExcept_bind (ends_refuseExported ?_) fun _ _ => ?_
  · rintro _ hmem
    obtain ⟨entry, hentry, rfl⟩ := List.mem_map.mp hmem
    exact htypes entry hentry
  refine (FailsWithin.modify _).bind fun _ _ => ?_
  refine (h.failsWithin_generateTypes hid hidentity htypes).bind fun _ _ => ?_
  split
  · exact .pure _
  · exact FailsWithin.forM fun entry hentry =>
      h.failsWithin_generateFunction hidentity (.interface hi hentry)

/-- A function of the world is generated. -/
theorem failsWithin_generateWorldFunction {f : Function} (hf : a.graph.HasFunction f)
    (direction : Direction) : FailsWithin (a.generateWorldFunction f direction) := by
  unfold generateWorldFunction
  split
  · exact (failsWithin_worldModule direction).bind fun _ _ =>
      h.failsWithin_generateFunction rfl hf
  · exact .pure _

/-- Whether the world declares a type is found out. -/
theorem failsWithin_declaresInWorld {t : TypeDef} (ht : t ∈ a.graph.types)
    (direction : Direction) : FailsWithin (a.declaresInWorld t direction) := by
  unfold declaresInWorld
  cases howner : t.owner with
  | none => exact .pure _
  | some owner =>
    refine (h.failsWithin_locate (h.closed.hasOwner ht howner)).bind fun location _ => ?_
    split
    · exact (failsWithin_worldLocation direction).bind fun _ _ => .pure _
    · exact .pure _

/-- A type of the world is generated. -/
theorem failsWithin_generateWorldType {id : Int} (hid : a.graph.Has .types id)
    (direction : Direction) : FailsWithin (a.generateWorldType id direction) := by
  refine FailsWithin.ofExcept_bind (Graph.ends_typeDef hid) fun t ht => ?_
  have htypes : ∀ id' ∈ [id], a.graph.Has .types id' := fun _ h => List.mem_singleton.mp h ▸ hid
  refine FailsWithin.ofExcept_bind (ends_refuseExported htypes) fun _ _ => ?_
  have hmem := Graph.mem_of_typeDef ht
  refine (h.failsWithin_declaresInWorld hmem direction).bind fun declares _ => ?_
  cases declares with
  | false => exact .pure _
  | true =>
    exact (failsWithin_worldModule direction).bind fun _ _ => h.failsWithin_generateType rfl hid

/-- **An item of the world is generated.** -/
theorem failsWithin_generateItem {item : Direction × Scalar × WorldItem} (hitem : item ∈ a.items) :
    FailsWithin (a.generateItem item) := by
  obtain ⟨direction, key, item⟩ := item
  cases item with
  | interface id =>
    refine h.failsWithin_generateInterface (h.has_of_interface hitem) ?_ direction false
    rintro k ⟨⟩
    exact h.isText_of_mem hitem
  | function f =>
    exact h.failsWithin_generateWorldFunction
      (.world h.mem_worlds (mem_imports_append_exports hitem)) direction
  | type id => exact h.failsWithin_generateWorldType (h.has_of_type hitem) direction

/-- **What was noted is generated**, as far as it can still be taken. -/
theorem failsWithin_generatePending (untaken : List Int)
    (huntaken : ∀ id ∈ untaken, a.graph.Has .interfaces id) :
    FailsWithin (a.generatePending untaken) := by
  intro s e s' hrun
  induction untaken, s using generatePending_induction with
  | finished hfind =>
    rw [generatePending_of_none hfind] at hrun
    cases hrun
  | @round untaken s j hfind hj _ ih =>
    rw [generatePending_of_some hfind] at hrun
    rcases bind_eq_error.mp hrun with htake | ⟨_, s₁, -, hrest⟩
    · have htaken : FailsWithin (a.generateInterface j none .imported true) :=
        h.failsWithin_generateInterface (huntaken j hj) (fun _ hk => by cases hk) .imported true
      exact htaken _ e s' htake
    · exact ih s₁ (fun k hk => huntaken k (List.mem_of_mem_erase hk)) hrest

/-- **All modules are generated.** -/
theorem failsWithin_generateAll : FailsWithin a.generateAll := by
  refine (FailsWithin.forM fun item hitem => h.failsWithin_generateItem hitem).bind fun _ _ => ?_
  refine h.failsWithin_generatePending _ fun id hid => ?_
  obtain ⟨k, hk, rfl⟩ := List.mem_map.mp hid
  exact ⟨Int.natCast_nonneg k, Int.ofNat_lt.mpr (List.mem_range.mp hk)⟩

end Sound

end Assignment

/-! ## The outcome -/

/-- A world that is selected is one of the graph. -/
theorem ends_selectWorld (g : Graph) (o : Options) : Ends (· ∈ g.worlds) (selectWorld g o) := by
  unfold selectWorld
  cases o.world with
  | some name =>
    cases hfound : g.worlds.find? (·.name = name) with
    | some world =>
      simp only [hfound]
      exact List.mem_of_find?_eq_some hfound
    | none =>
      simp only [hfound]
      trivial
  | none =>
    cases hworlds : g.worlds with
    | nil => trivial
    | cons world rest =>
      cases rest with
      | nil => exact List.mem_singleton_self world
      | cons _ _ => trivial

/-- **Modules, or a fault of generation.** -/
theorem ends_generateModules {g : Graph} (horderly : g.Orderly) (hclosed : g.Closed)
    (hkeys : ∀ w ∈ g.worlds, w.KeysAreTexts) (o : Options) :
    Ends (fun _ => True) (generateModules g o) := by
  refine (ends_selectWorld g o).bind fun world hworld => ?_
  have hrun : FailsWithin (generateWorld g o world) :=
    (FailsWithin.ofNaming (Layout.failsWithin_start o.baseSegments)).bind fun layout _ =>
      Assignment.Sound.failsWithin_generateAll ⟨horderly, hclosed, hworld, hkeys world hworld⟩
  cases hresult : generateWorld g o world {} with
  | ok _ s => trivial
  | error fault s => exact hrun _ _ _ hresult

/-- The kinds of the faults of generation. -/
theorem Fault.OfGeneration.kind_mem {fault : Fault} (h : fault.OfGeneration) :
    fault.diagnostic.kind ∈ [Diagnostic.Kind.ambiguousWorld, .unknownWorld, .unsupportedFeature,
      .nameCollision, .tooManyFlags, .invalidDocument] := by
  cases fault with
  | ambiguousWorld _ | unsupportedKind _ _ | exportedResource _ _ | nameCollision _ _ _ _
  | tooManyFlags _ _ | noIdentifier _ | unnamedInterface _ | unnamedType _ | selfReference _
  | unnamedDeclaration _ _ | undeclarable _ =>
    simp [Fault.diagnostic]
  | unknownWorld name _ => cases name <;> simp [Fault.diagnostic]
  | unreadable | unrepresentable _ | notEnumerable | malformed _ _ | dangling _ _ _ | notText _
  | notComposite _ | alreadyRendered _ => exact h.elim

/-- **A graph that is read from JSON has no loose ends, and generating from it
ends with files or with a fault of generation**, whatever the options. -/
theorem outcome_of_ofDocument {document : Document} (hjson : document.isJson = true) {g : Graph}
    (hread : Graph.ofDocument document = .ok g) :
    (∀ arena id, g.Stores arena id → g.Has arena id) ∧
      (∀ id, g.StoresResource id → g.HasResource id) ∧
      ∀ o, (∃ files, generate g o = .ok files) ∨
        ∃ fault, generate g o = .error fault ∧ fault.OfGeneration ∧
          fault.diagnostic.kind ∈ [Diagnostic.Kind.ambiguousWorld, .unknownWorld,
            .unsupportedFeature, .nameCollision, .tooManyFlags, .invalidDocument] := by
  have hclosed := Graph.closed_of_ofDocument hread
  refine ⟨fun _ _ => hclosed.has, fun _ => hclosed.hasResource, fun o => ?_⟩
  have hends : Ends (fun _ => True) (generate g o) :=
    (ends_generateModules (Graph.orderly_of_ofDocument hread) hclosed
      (fun _ => Graph.keysAreTexts_of_ofDocument hjson hread) o).bind fun _ _ => trivial
  cases hresult : generate g o with
  | ok files => exact .inl ⟨files, rfl⟩
  | error fault =>
    rw [hresult] at hends
    exact .inr ⟨fault, rfl, hends, hends.kind_mem⟩

/-- The graph with the two arrows, of which every run comes to an end. -/
theorem outcome_of_arrowDocument :
    arrowDocument.isJson = true ∧ Graph.ofDocument arrowDocument = .ok arrowGraph ∧
      (∀ arena id, arrowGraph.Stores arena id → arrowGraph.Has arena id) ∧
      (∀ id, arrowGraph.StoresResource id → arrowGraph.HasResource id) ∧
      ∀ o, (∃ files, generate arrowGraph o = .ok files) ∨
        ∃ fault, generate arrowGraph o = .error fault ∧ fault.OfGeneration ∧
          fault.diagnostic.kind ∈ [Diagnostic.Kind.ambiguousWorld, .unknownWorld,
            .unsupportedFeature, .nameCollision, .tooManyFlags, .invalidDocument] := by
  have hjson : arrowDocument.isJson = true := rfl
  have hread : Graph.ofDocument arrowDocument = .ok arrowGraph := rfl
  exact ⟨hjson, hread, outcome_of_ofDocument hjson hread⟩

end ComponentBindings
