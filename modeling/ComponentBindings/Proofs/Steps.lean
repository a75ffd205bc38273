import ComponentBindings.Proofs.Regions

/-!
# What the steps of a run add

Every step of a run is about one module: the one of an interface in one
direction, or the one of the world. `Assignment.licence` is what such a step
may do, and here it is shown that no step does more, whether it succeeds or
fails. A step that gets as far as to a declaration has opened its module
before, with the claims of its location on record, and that is all that the
declaration needs to know of the run.
-/

namespace ComponentBindings

namespace Assignment

variable {a : Assignment} {before s s' : Session} {key : ModuleKey} {location : Location}
  {site : Site} {j : Int} {direction : Direction}

/-! ## Declarations -/

/-- What a module is written with is located in the step that is about it. -/
theorem locatesAll_of_subset (location : Location) {refs : List TypeRef}
    (hrefs : refs ⊆ a.refsAt key) (hopen : key ∈ before.opened) :
    (a.renderer location).LocatesAll (a.licence key) before refs := by
  rintro id ⟨ref, href, hnames⟩ t owner ht hname howner
  refine permits_locate (fun j hj _ _ => ?_) fun _ _ _ _ => hopen
  exact ⟨id, t, ht, hj ▸ howner, .inr ⟨hname, ref, hrefs href, hnames⟩⟩

/-- A module may be changed as long as it keeps its key. -/
theorem permits_changeModule {L : Licence} {change : Module → Module}
    (hkey : ∀ m, (change m).key = m.key) : L.Permits before (changeModule key change) :=
  .modify fun _ _ => .of_eq rfl (Session.opened_changeModule hkey) rfl

/-- **A type is declared in its module.** -/
theorem permits_generateType {id : Int} (hid : id ∈ (a.contentAfter a.items key).types)
    (hplaced : a.Placed before.claims key location) (hscope : site.scope = location.path)
    (hopen : key ∈ before.opened) :
    (a.licence key).Permits before (a.generateType key location site id) := by
  refine .ofExcept_bind (a.graph.neverCollides_typeDef id) fun t ht => ?_
  have hallows : (a.licence key).AllowsType a.graph site t before := by
    refine ⟨fun hraw hname => ?_, fun hraw hname hmore hheld hfills => ?_⟩
    · rw [hscope]
      exact (Registers.type hplaced hid ht hraw hname).allowed
    · rw [hscope] at hheld
      rw [Site.memberScope, hscope]
      exact (Registers.part (hplaced.mono hmore.claims) hid ht hraw hname hheld hfills).allowed
  have hlocates := locatesAll_of_subset location (refsOf_subset_refsAt hid ht) hopen
  refine (Renderer.permits_emitType hallows hlocates).bind fun d _ => ?_
  exact permits_changeModule fun m => m.withType_key

/-- **A function is declared in its module**, if it belongs to no resource. -/
theorem permits_generateFunction {f : Function}
    (hf : f.isFreestanding = true → f ∈ (a.contentAfter a.items key).functions)
    (hplaced : a.Placed before.claims key location) (hscope : site.scope = location.path)
    (hopen : key ∈ before.opened) :
    (a.licence key).Permits before (a.generateFunction key location site f) := by
  unfold generateFunction
  by_cases hfree : f.isFreestanding = true
  swap
  · rw [if_neg hfree]
    exact .pure _
  rw [if_pos hfree]
  have hmem := hf hfree
  have hallows : (a.licence key).AllowsFunction site f before := by
    refine ⟨fun hname => ?_, fun hname hp hx => ?_⟩
    · rw [hscope]
      exact (Registers.function hplaced hmem hname).allowed
    · rw [hscope]
      exact (Registers.param hplaced hmem hname hp hx).allowed
  have hlocates := locatesAll_of_subset location (refs_subset_refsAt hmem) hopen
  refine (Renderer.permits_emitFunction hfree hallows hlocates).bind fun d _ => ?_
  exact permits_changeModule fun m => rfl

/-! ## Interfaces -/

/-- An interface that the world does not list has its module as an import. -/
theorem Placed.eq_imported {claims : Claims} (h : a.Placed claims (.interface j direction) location)
    (hunlisted : a.Unlisted j) : direction = .imported := by
  obtain ⟨-, -, listed, hlisted⟩ := h
  cases listed with
  | none => exact hlisted.2
  | some scalar =>
    have hlists := lists_iff.mpr ⟨scalar, hlisted⟩
    cases direction with
    | imported => rfl
    | exported =>
      rw [hunlisted.2] at hlists
      cases hlists

/-- **The types of an interface are declared in its module**, if it is where
they belong. -/
theorem permits_generateTypes {i : Interface} (hi : a.graph.interface j = .ok i)
    (hplaced : a.Placed before.claims (.interface j direction) location)
    (hscope : site.scope = location.path) (hopen : .interface j direction ∈ before.opened) :
    (a.licence (.interface j direction)).Permits before
      (a.generateTypes i j (.interface j direction) location site) := by
  have hlocate : (a.licence (.interface j direction)).Permits before
      (a.locate (.interface j)) := by
    refine permits_locate ?_ fun _ _ _ _ => hopen
    -- An interface that is not listed is not noted, since this is its module.
    rintro k ⟨⟩ hunlisted hne
    exact absurd (congrArg _ (hplaced.eq_imported hunlisted)) hne
  refine hlocate.bind_ok fun {found s s'} hs hrun => ?_
  have hadvances := hs.trans (hlocate.ok hs hrun).advances
  split
  swap
  · exact .pure _
  next hfound =>
  have hdirection : a.directionOf j = direction := by
    rw [← direction_of_interfacePlace hplaced.1, ← hfound]
    exact (direction_of_interfacePlace (locate_eq_ok (fun _ => False) hrun).1).symm
  refine .forM fun entry hentry => permits_generateType ?_ (hplaced.mono hadvances.claims) hscope
    (hadvances.opened hopen)
  exact mem_types_interface.mpr ⟨hdirection, i, hi, List.mem_map_of_mem hentry⟩

/-- Types that are not refused where they are exported are no resources. -/
theorem not_hasResource_of_refuseExported {identity : Scalar} {types : List Int} {u : Unit}
    (h : a.refuseExported .exported identity types = .ok u) :
    ∀ id ∈ types, ¬ a.graph.HasResource id := by
  rintro id hid ⟨t, ht, hkind⟩
  have hrefused := except_forM_eq_ok.mp h id hid
  simp only [ht, except_bind_eq_ok, Except.ok.injEq, exists_eq_left', refuseResource, hkind,
    if_true] at hrefused
  cases hrefused

/-- Types are refused or not. -/
theorem neverCollides_refuseExported {identity : Scalar} {types : List Int} :
    NeverCollides (a.refuseExported direction identity types) := by
  cases direction with
  | imported => trivial
  | exported =>
    refine EndsIn.forM fun id _ => NeverCollides.bind (a.graph.neverCollides_typeDef id) ?_
    intro t _
    unfold refuseResource
    split <;> trivial

/-- **A module may be opened** that no resource would be exported from. -/
theorem permits_openModule {docs : Option String} (hmay : a.MayOpen key) :
    (a.licence key).Permits before (openModule key location docs) := by
  refine .modify fun s _ => ?_
  by_cases hopen : s.modules.any (·.key = key)
  · rw [if_pos hopen]
    exact .refl _ s
  rw [if_neg hopen]
  refine ⟨List.prefix_rfl, fun _ => .inl, ⟨[key], ?_, ?_⟩, List.prefix_rfl, fun _ => .inl, id⟩
  · simp [Session.opened]
  · rintro _ (_ | ⟨_, ⟨⟩⟩)
    exact ⟨rfl, hmay⟩

/-- A module that is opened is open. -/
theorem mem_opened_of_openModule {docs : Option String} {u : Unit}
    (hrun : openModule key location docs s = .ok u s') :
    key ∈ s'.opened ∧ s'.claims = s.claims := by
  unfold openModule at hrun
  rw [modify_eq_ok] at hrun
  split at hrun
  · next hopen =>
    obtain rfl := hrun
    exact ⟨by simpa [Session.opened] using hopen, rfl⟩
  · obtain rfl := hrun
    exact ⟨by simp [Session.opened], rfl⟩

/-- **The module of an interface is opened and filled**, if it is not open. -/
theorem permits_generateInterface {listed : Option Scalar}
    (hlisted : a.ListedAs j direction listed) :
    (a.licence (.interface j direction)).Permits before
      (a.generateInterface j listed direction (!a.lists direction j)) := by
  refine Licence.Permits.get.bind fun s _ => ?_
  split
  · exact .pure _
  refine .ofExcept_bind (a.graph.neverCollides_interface j) fun i hi => ?_
  refine (permits_interfaceLocation j direction).bind_ok fun {location s s₁} hs hlocation => ?_
  obtain ⟨hplace, -, -, hgranted⟩ := interfaceLocation_eq_ok hlocation
  have hplaced : a.Placed s₁.claims (.interface j direction) location :=
    ⟨hplace, hgranted, listed, hlisted⟩
  refine .ofExcept_bind (a.graph.neverCollides_identityOf j _) fun identity _ => ?_
  refine .ofExcept_bind neverCollides_refuseExported fun _ hrefused => ?_
  have hmay : a.MayOpen (.interface j direction) := by
    cases direction with
    | imported => trivial
    | exported =>
      intro i' hi'
      obtain rfl := Except.ok.inj (hi.symm.trans hi')
      exact not_hasResource_of_refuseExported hrefused
  refine (permits_openModule hmay).bind_ok fun {_ s₂ s₃} hs₂ hopened => ?_
  obtain ⟨hopen, hclaims⟩ := mem_opened_of_openModule hopened
  have hplaced₃ : a.Placed s₃.claims (.interface j direction) location :=
    hplaced.mono (hclaims ▸ hs₂.claims)
  refine (permits_generateTypes hi hplaced₃ rfl hopen).bind fun _ _ => ?_
  cases hlists : a.lists direction j with
  | false => exact .pure _
  | true =>
    refine .forM fun entry hentry => permits_generateFunction (fun hfree => ?_) hplaced₃ rfl hopen
    exact mem_functions_interface.mpr ⟨⟨hlists, i, hi, List.mem_map_of_mem hentry⟩, hfree⟩

/-! ## Items of the world -/

/-- The module of the world is opened if need be. -/
theorem permits_worldModule (hmem : a.world ∈ a.graph.worlds) :
    (a.licence (.world direction)).Permits before (a.worldModule direction) := by
  have hmay : a.MayOpen (.world direction) := trivial
  exact (permits_worldLocation hmem direction).bind fun _ _ =>
    (permits_openModule hmay).bind fun _ _ => .pure _

/-- The module of the world is open, and in its place. -/
theorem placed_of_worldModule (hrun : a.worldModule direction s = .ok location s') :
    a.Placed s'.claims (.world direction) location ∧ .world direction ∈ s'.opened := by
  simp only [worldModule, bind_eq_ok, pure_eq_ok] at hrun
  obtain ⟨_, s₁, hlocation, _, _, hopened, rfl, rfl⟩ := hrun
  obtain ⟨hplace, -, -, hgranted⟩ := worldLocation_eq_ok hlocation
  obtain ⟨hopen, hclaims⟩ := mem_opened_of_openModule hopened
  rw [hclaims]
  exact ⟨⟨hplace, hgranted⟩, hopen⟩

/-- **A function of the world is declared** in the module of the world. -/
theorem permits_generateWorldFunction {scalar : Scalar} {f : Function}
    (hmem : a.world ∈ a.graph.worlds) (hitem : (direction, scalar, .function f) ∈ a.items) :
    (a.licence (.world direction)).Permits before (a.generateWorldFunction f direction) := by
  unfold generateWorldFunction
  by_cases hfree : f.isFreestanding = true
  swap
  · rw [if_neg hfree]
    exact .pure _
  rw [if_pos hfree]
  refine (permits_worldModule hmem).bind_ok fun _ hmodule => ?_
  obtain ⟨hplaced, hopen⟩ := placed_of_worldModule hmodule
  exact permits_generateFunction (fun _ => mem_functions_world.mpr ⟨⟨scalar, hitem⟩, hfree⟩)
    hplaced rfl hopen

/-- **A type that the world lists is declared** in the module of the world, if
that is where it belongs. -/
theorem permits_generateWorldType {scalar : Scalar} {id : Int} (hmem : a.world ∈ a.graph.worlds)
    (hitem : (direction, scalar, .type id) ∈ a.items) :
    (a.licence (.world direction)).Permits before (a.generateWorldType id direction) := by
  refine .ofExcept_bind (a.graph.neverCollides_typeDef id) fun t ht => ?_
  refine .ofExcept_bind neverCollides_refuseExported fun _ _ => ?_
  have hdeclares : (a.licence (.world direction)).Permits before
      (a.declaresInWorld t direction) := by
    unfold declaresInWorld
    cases howner : t.owner with
    | none => exact .pure _
    | some owner =>
      refine (permits_locate (fun j hj _ _ => ?_) fun _ _ _ hkey => by cases hkey).bind
        fun _ _ => ?_
      · exact ⟨id, t, ht, hj ▸ howner, .inl ⟨direction, scalar, hitem⟩⟩
      · split
        · exact (permits_worldLocation hmem direction).bind fun _ _ => .pure _
        · exact .pure _
  refine hdeclares.bind fun b ⟨_, _, hb⟩ => ?_
  by_cases hhere : b = true
  swap
  · rw [if_neg hhere]
    exact .pure _
  rw [if_pos hhere]
  refine (permits_worldModule hmem).bind_ok fun _ hmodule => ?_
  obtain ⟨hplaced, hopen⟩ := placed_of_worldModule hmodule
  refine permits_generateType ?_ hplaced rfl hopen
  exact mem_types_world.mpr ⟨⟨scalar, hitem⟩, (eq_declaresHere ht hb).symm.trans hhere⟩

/-- The module that an item of the world is about. -/
def keyOfItem : Direction × Scalar × WorldItem → ModuleKey
  | (direction, _, .interface j) => .interface j direction
  | (direction, _, _) => .world direction

/-- **An item of the world is walked.** -/
theorem permits_generateItem {item : Direction × Scalar × WorldItem}
    (hmem : a.world ∈ a.graph.worlds) (hitem : item ∈ a.items) :
    (a.licence (keyOfItem item)).Permits before (a.generateItem item) := by
  obtain ⟨direction, scalar, item⟩ := item
  cases item with
  | interface j =>
    have hlists : a.lists direction j = true := lists_iff.mpr ⟨scalar, hitem⟩
    have hpermits : (a.licence (.interface j direction)).Permits before
        (a.generateInterface j (some scalar) direction (!a.lists direction j)) :=
      permits_generateInterface hitem
    rwa [hlists] at hpermits
  | function f => exact permits_generateWorldFunction hmem hitem
  | type id => exact permits_generateWorldType hmem hitem

/-- **An interface that waits gets its module**, for its types only. -/
theorem permits_take (hunlisted : a.Unlisted j) :
    (a.licence (.interface j .imported)).Permits before
      (a.generateInterface j none .imported true) := by
  have hlisted : a.ListedAs j .imported none := ⟨hunlisted, rfl⟩
  have hpermits : (a.licence (.interface j .imported)).Permits before
      (a.generateInterface j none .imported (!a.lists .imported j)) :=
    permits_generateInterface hlisted
  rwa [hunlisted.1] at hpermits

end Assignment

end ComponentBindings
