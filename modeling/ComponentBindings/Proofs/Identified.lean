import ComponentBindings.Proofs.Run

/-!
# What the markers of a module carry

The marker of a function or of a resource repeats the identity of the
interface or world that owns it. An interface can be listed under several keys
in one direction, but only the first of them opens its module: at the others
the module is there already and is left alone. So all markers of a module carry
one identity, which can be told from the graph and the world
(`Assignment.identityAt`).

The invariant is that every open module carries its identity
(`Assignment.Identified`). Whatever emits a declaration leaves the modules as
they are, as the tables are right; what is added to a module was emitted for
the identity of the module. One item of the world keeps the invariant
(`Assignment.Identified.generateItem`), then so does one round of the last
loop, and then the whole run (`Assignment.identified_of_generateAll`).
-/

namespace ComponentBindings

/-! ## Identities in markers -/

/-- The scalar that is written as an argument. -/
def Argument.scalar : Argument → Scalar
  | .text value => .text value
  | .number value => .int value
  | .truth value => .bool value

/-- The argument of a site is its identity. -/
theorem Site.identity_of_argument {site : Site} {identity : Argument}
    (h : site.argument = .ok identity) : site.identity = identity.scalar := by
  unfold argument at h
  cases hidentity : site.identity <;> rw [hidentity] at h <;> cases h <;> rfl

/-- The identity that the marker of a declared type carries: that of a resource
does. -/
def TypeDeclaration.identity? (d : TypeDeclaration) : Option Argument :=
  match d.body with
  | .resource identity _ _ _ => some identity
  | _ => none

/-- **The identities that the markers of a module carry.** -/
def Module.identities (m : Module) : List Argument :=
  (m.types ++ m.resources).filterMap TypeDeclaration.identity? ++
    m.functions.map FreeFunction.identity

/-- What is declared for a type definition carries the identity of its site. -/
theorem DeclarationOf.identity_eq {g : Graph} {w : Wording} {site : Site} {t : TypeDef}
    {d : TypeDeclaration} (h : DeclarationOf g w site t d) {identity : Argument}
    (hidentity : d.identity? = some identity) : site.identity = identity.scalar := by
  have hbody := h.body
  unfold TypeDeclaration.identity? at hidentity
  cases hform : d.body with
  | resource _ _ _ _ =>
    rw [hform] at hbody hidentity
    obtain rfl := Option.some.inj hidentity
    cases hbody with
    | resource _ _ hargument _ _ _ _ => exact Site.identity_of_argument hargument
  | record _ | variant _ | flags _ _ | aliasOf _ =>
    rw [hform] at hidentity
    cases hidentity

/-- A module with one more type carries its identities and that of the type. -/
theorem Module.mem_identities_withType {m : Module} {d : TypeDeclaration} {identity : Argument}
    (h : identity ∈ (m.withType d).identities) :
    identity ∈ m.identities ∨ d.identity? = some identity := by
  unfold identities at h ⊢
  rw [withType_functions] at h
  rcases List.mem_append.mp h with h | h
  · obtain ⟨d', hd', hidentity⟩ := List.mem_filterMap.mp h
    rcases mem_withType hd' with hd' | rfl
    · exact .inl (List.mem_append_left _ (List.mem_filterMap.mpr ⟨d', hd', hidentity⟩))
    · exact .inr hidentity
  · exact .inl (List.mem_append_right _ h)

namespace Assignment

/-- The first key under which the world lists an interface in a direction. -/
def keyIn (a : Assignment) (direction : Direction) (j : Int) : Option Scalar :=
  (a.items.find? fun (d, _, item) => d = direction ∧ item = .interface j).map
    fun (_, key, _) => key

/-- The key that identifies an interface without a name in a direction: the
first one there, unless it counts as empty. -/
def identifyingKey (a : Assignment) (direction : Direction) (j : Int) : Option Scalar :=
  (a.keyIn direction j).filter (!·.isEmpty) <|> a.keyOf j

/-- **The identity of what a module is generated for.** -/
def identityAt (a : Assignment) : ModuleKey → Except Fault Scalar
  | .interface j direction => a.graph.identityOf j (a.identifyingKey direction j)
  | .world _ => .ok worldIdentity

/-- **Every open module carries its identity** in all its markers. -/
def Identified (a : Assignment) (s : Session) : Prop :=
  ∀ m ∈ s.modules, ∀ identity ∈ m.identities, a.identityAt m.key = .ok identity.scalar

variable {a : Assignment} {orderly : a.graph.Orderly} {granted : Int → Prop} {s s' : Session}
  {key : ModuleKey} {location : Location} {site : Site} {u : Unit}

namespace Identified

/-- Modules that stay as they are stay identified. -/
theorem of_modules (h : a.Identified s) (hmodules : s'.modules = s.modules) : a.Identified s' := by
  unfold Identified
  rwa [hmodules]

/-- A module that is opened has no markers yet. -/
theorem openModule {docs : Option String} (h : a.Identified s)
    (hrun : Assignment.openModule key location docs s = .ok u s') : a.Identified s' := by
  unfold Assignment.openModule at hrun
  obtain rfl := modify_eq_ok.mp hrun
  split
  · exact h
  · intro m hm
    rcases List.mem_append.mp hm with hm | hm
    · exact h m hm
    · obtain rfl := List.mem_singleton.mp hm
      exact fun identity hidentity => absurd hidentity List.not_mem_nil

/-- A module is changed, and its new markers carry its identity. -/
theorem changeModule {change : Module → Module} {identity : Scalar} (h : a.Identified s)
    (hidentity : a.identityAt key = .ok identity) (hkey : ∀ m, (change m).key = m.key)
    (hchange : ∀ m, ∀ x ∈ (change m).identities, x ∈ m.identities ∨ identity = x.scalar)
    (hrun : Assignment.changeModule key change s = .ok u s') : a.Identified s' := by
  unfold Assignment.changeModule at hrun
  obtain rfl := modify_eq_ok.mp hrun
  intro m' hm' x hx
  obtain ⟨m, hm, rfl⟩ := List.mem_map.mp hm'
  split at hx
  · next hmkey =>
    rw [if_pos hmkey, hkey]
    rcases hchange m x hx with hx | rfl
    · exact h m hm x hx
    · rw [hmkey, hidentity]
  · next hmkey =>
    rw [if_neg hmkey]
    exact h m hm x hx

end Identified

/-- **A session that declarations can be added to**: its tables are right, and
its modules are identified. -/
structure Ready (a : Assignment) (orderly : a.graph.Orderly) (granted : Int → Prop)
    (s : Session) : Prop where
  /-- The tables are right. -/
  coherent : (a.placement orderly granted).Coherent s
  /-- The modules are identified. -/
  identified : a.Identified s

namespace Ready

/-- Claims change nothing about it. -/
theorem of_claims (h : a.Ready orderly granted s) (hmore : s.claims <+: s'.claims)
    (hs' : s' = { s with claims := s'.claims }) : a.Ready orderly granted s' := by
  rw [hs']
  exact ⟨h.coherent.of_tables (.ofClaims hmore) rfl rfl fun _ => .inl, h.identified⟩

/-- To look for an owner changes no module. -/
theorem locate {owner : TypeOwner} (h : a.Ready orderly granted s)
    (hrun : a.locate owner s = .ok location s') : a.Ready orderly granted s' := by
  have hfollows := renderer_follows orderly granted location
  have hgrows := hfollows.grows hrun
  exact ⟨h.coherent.of_tables hgrows (hfollows.references hrun) (hfollows.instantiations hrun)
    (hfollows.pending hrun), h.identified.of_modules hgrows.modules⟩

/-- A module is opened. -/
theorem openModule {docs : Option String} (h : a.Ready orderly granted s)
    (hrun : Assignment.openModule key location docs s = .ok u s') : a.Ready orderly granted s' := by
  refine ⟨?_, h.identified.openModule hrun⟩
  unfold Assignment.openModule at hrun
  obtain rfl := modify_eq_ok.mp hrun
  split
  · exact h.coherent
  · refine coherent_of_modules h.coherent ?_
    simp only [Session.opened, List.map_append]
    exact List.subset_append_left _ _

/-- A declaration is added to a module. -/
theorem changeModule {change : Module → Module} {identity : Scalar}
    (h : a.Ready orderly granted s) (hidentity : a.identityAt key = .ok identity)
    (hkey : ∀ m, (change m).key = m.key)
    (hchange : ∀ m, ∀ x ∈ (change m).identities, x ∈ m.identities ∨ identity = x.scalar)
    (hrun : Assignment.changeModule key change s = .ok u s') : a.Ready orderly granted s' := by
  refine ⟨?_, h.identified.changeModule hidentity hkey hchange hrun⟩
  unfold Assignment.changeModule at hrun
  obtain rfl := modify_eq_ok.mp hrun
  have hopened : ({ s with modules := s.modules.map fun m =>
      if m.key = key then change m else m } : Session).opened = s.opened :=
    Session.opened_changeModule hkey
  exact coherent_of_modules h.coherent fun k hk => hopened ▸ hk

/-- **A type is declared** with the identity of its module. -/
theorem generateType {id : Int} (h : a.Ready orderly granted s)
    (hidentity : a.identityAt key = .ok site.identity)
    (hrun : a.generateType key location site id s = .ok u s') : a.Ready orderly granted s' := by
  simp only [Assignment.generateType, bind_eq_ok, Emission.ofExcept_eq_ok] at hrun
  obtain ⟨t, _, ⟨-, rfl⟩, d, s₁, hemit, hadd⟩ := hrun
  obtain ⟨hcoherent, hgrows, hd⟩ :=
    (renderer_follows orderly granted location).emits_type site t s d s₁ h.coherent hemit
  have h₁ : a.Ready orderly granted s₁ := ⟨hcoherent, h.identified.of_modules hgrows.modules⟩
  have hchange : Assignment.changeModule key (·.withType d) s₁ = .ok u s' := hadd
  refine h₁.changeModule hidentity (fun _ => Module.withType_key) (fun m x hx => ?_) hchange
  exact (Module.mem_identities_withType hx).imp_right (hd _ (.refl _)).identity_eq

/-- **A function is declared** with the identity of its module. -/
theorem generateFunction {f : Function} (h : a.Ready orderly granted s)
    (hidentity : a.identityAt key = .ok site.identity)
    (hrun : a.generateFunction key location site f s = .ok u s') :
    a.Ready orderly granted s' := by
  unfold Assignment.generateFunction at hrun
  split at hrun
  · obtain ⟨d, s₁, hemit, hadd⟩ := bind_eq_ok.mp hrun
    obtain ⟨hcoherent, hgrows, hd⟩ :=
      (renderer_follows orderly granted location).emits_function site f s d s₁ h.coherent hemit
    have h₁ : a.Ready orderly granted s₁ := ⟨hcoherent, h.identified.of_modules hgrows.modules⟩
    have hchange : Assignment.changeModule key
        (fun m => { m with functions := m.functions ++ [d] }) s₁ = .ok u s' := hadd
    refine h₁.changeModule hidentity ?_ ?_ hchange
    · exact fun _ => rfl
    · intro m x hx
      have hx : x ∈ m.identities ∨ x = d.identity := by
        simpa [Module.identities, or_assoc] using hx
      refine hx.imp_right ?_
      rintro rfl
      exact Site.identity_of_argument (hd _ (.refl _)).identity
  · obtain ⟨-, rfl⟩ := pure_eq_ok.mp hrun
    exact h

/-- The types of an interface are declared. -/
theorem generateTypes {i : Interface} {j : Int} (h : a.Ready orderly granted s)
    (hidentity : a.identityAt key = .ok site.identity)
    (hrun : a.generateTypes i j key location site s = .ok u s') : a.Ready orderly granted s' := by
  unfold Assignment.generateTypes at hrun
  obtain ⟨_, s₁, hlocate, hrun⟩ := bind_eq_ok.mp hrun
  have h₁ := h.locate hlocate
  split at hrun
  · refine forM_keeps (I := fun _ s => a.Ready orderly granted s) ?_ h₁ hrun
    exact fun _ entry _ _ _ _ h hstep => h.generateType hidentity hstep
  · obtain ⟨-, rfl⟩ := pure_eq_ok.mp hrun
    exact h₁

/-- The functions of an interface are declared. -/
theorem generateFunctions {functions : List (Scalar × Function)} (h : a.Ready orderly granted s)
    (hidentity : a.identityAt key = .ok site.identity)
    (hrun : (functions.forM fun (_, f) => a.generateFunction key location site f) s = .ok u s') :
    a.Ready orderly granted s' :=
  forM_keeps (I := fun _ s => a.Ready orderly granted s)
    (fun _ _ _ _ _ _ h hstep => h.generateFunction hidentity hstep) h hrun

/-- **The module of an interface is generated** with its identity, if it is
opened under its first key. -/
theorem generateInterface {j : Int} {listed : Option Scalar} {direction : Direction}
    {typesOnly : Bool} (h : a.Ready orderly granted s)
    (hlisted : .interface j direction ∉ s.opened → listed = a.keyIn direction j)
    (hrun : a.generateInterface j listed direction typesOnly s = .ok u s') :
    a.Ready orderly granted s' := by
  unfold Assignment.generateInterface at hrun
  obtain ⟨_, _, hget, hrun⟩ := bind_eq_ok.mp hrun
  obtain ⟨rfl, rfl⟩ := get_eq_ok.mp hget
  split at hrun
  · obtain ⟨-, rfl⟩ := pure_eq_ok.mp hrun
    exact h
  · next hopen =>
    obtain rfl := hlisted (by simpa [Session.opened] using hopen)
    simp only [bind_eq_ok, Emission.ofExcept_eq_ok] at hrun
    obtain ⟨i, _, ⟨-, rfl⟩, location, s₁, hlocation, identity, _, ⟨hidentity, rfl⟩,
      _, _, ⟨-, rfl⟩, _, s₂, hopened, _, s₃, htypes, hrest⟩ := hrun
    obtain ⟨-, hmore, hs₁, -⟩ := interfaceLocation_eq_ok hlocation
    have hsite : a.identityAt (.interface j direction)
        = .ok (Site.mk direction identity location.path).identity := hidentity
    have h₃ := ((h.of_claims hmore hs₁).openModule hopened).generateTypes hsite htypes
    split at hrest
    · obtain ⟨-, rfl⟩ := pure_eq_ok.mp hrest
      exact h₃
    · exact h₃.generateFunctions hsite hrest

/-- The module of the world is opened. -/
theorem worldModule {direction : Direction} (h : a.Ready orderly granted s)
    (hrun : a.worldModule direction s = .ok location s') : a.Ready orderly granted s' := by
  simp only [Assignment.worldModule, bind_eq_ok, pure_eq_ok] at hrun
  obtain ⟨_, s₁, hlocation, _, _, hopened, -, rfl⟩ := hrun
  obtain ⟨-, hmore, hs₁, -⟩ := worldLocation_eq_ok hlocation
  exact (h.of_claims hmore hs₁).openModule hopened

/-- A function of the world is declared. -/
theorem generateWorldFunction {f : Function} {direction : Direction} (h : a.Ready orderly granted s)
    (hrun : a.generateWorldFunction f direction s = .ok u s') : a.Ready orderly granted s' := by
  unfold Assignment.generateWorldFunction at hrun
  split at hrun
  · obtain ⟨_, _, hmodule, hfunction⟩ := bind_eq_ok.mp hrun
    exact (h.worldModule hmodule).generateFunction rfl hfunction
  · obtain ⟨-, rfl⟩ := pure_eq_ok.mp hrun
    exact h

/-- To find out whether a type is declared in the module of the world changes
no module. -/
theorem declaresInWorld {t : TypeDef} {direction : Direction} {b : Bool}
    (h : a.Ready orderly granted s) (hrun : a.declaresInWorld t direction s = .ok b s') :
    a.Ready orderly granted s' := by
  unfold Assignment.declaresInWorld at hrun
  cases howner : t.owner with
  | none =>
    simp only [howner, pure_eq_ok] at hrun
    obtain ⟨-, rfl⟩ := hrun
    exact h
  | some owner =>
    simp only [howner] at hrun
    obtain ⟨_, s₁, hlocate, hrun⟩ := bind_eq_ok.mp hrun
    have h₁ := h.locate hlocate
    split at hrun
    · simp only [bind_eq_ok, pure_eq_ok] at hrun
      obtain ⟨_, _, hworld, -, rfl⟩ := hrun
      obtain ⟨-, hmore, hs', -⟩ := worldLocation_eq_ok hworld
      exact h₁.of_claims hmore hs'
    · obtain ⟨-, rfl⟩ := pure_eq_ok.mp hrun
      exact h₁

/-- A type of the world is declared. -/
theorem generateWorldType {id : Int} {direction : Direction} (h : a.Ready orderly granted s)
    (hrun : a.generateWorldType id direction s = .ok u s') : a.Ready orderly granted s' := by
  simp only [Assignment.generateWorldType, bind_eq_ok, Emission.ofExcept_eq_ok] at hrun
  obtain ⟨t, _, ⟨-, rfl⟩, _, _, ⟨-, rfl⟩, b, s₁, hdeclares, hrest⟩ := hrun
  have h₁ := h.declaresInWorld hdeclares
  split at hrest
  · obtain ⟨_, _, hmodule, htype⟩ := bind_eq_ok.mp hrest
    exact (h₁.worldModule hmodule).generateType rfl htype
  · obtain ⟨-, rfl⟩ := pure_eq_ok.mp hrest
    exact h₁

end Ready

/-! ## From one item to the next -/

/-- The first item that lists an interface in a direction gives its first
key. -/
theorem keyIn_of_items {done rest : List (Direction × Scalar × WorldItem)} {direction : Direction}
    {key : Scalar} {j : Int} (hitems : a.items = done ++ (direction, key, .interface j) :: rest)
    (hfirst : ∀ key', (direction, key', .interface j) ∉ done) :
    a.keyIn direction j = some key := by
  have hnone : done.find? (fun (d, _, item) => d = direction ∧ item = .interface j) = none := by
    rw [List.find?_eq_none]
    rintro ⟨d, key', item⟩ hmem hfound
    obtain ⟨rfl, rfl⟩ : d = direction ∧ item = .interface j := by simpa using hfound
    exact hfirst key' hmem
  unfold keyIn
  rw [hitems, List.find?_append, hnone, Option.none_or, List.find?_cons_of_pos (by simp)]
  rfl

/-- An interface that is not listed in a direction has no key there. -/
theorem keyIn_eq_none_iff {direction : Direction} {j : Int} :
    a.keyIn direction j = none ↔ a.lists direction j = false := by
  rw [← Bool.not_eq_true, lists_iff]
  simp only [keyIn, Option.map_eq_none_iff, List.find?_eq_none, not_exists, Prod.forall,
    decide_eq_true_eq, not_and]
  exact ⟨fun h key hmem => h _ key _ hmem rfl rfl,
    fun h _ key _ hmem hd hitem => h key (hd ▸ hitem ▸ hmem)⟩

/-- **An item of the world keeps the modules identified.** -/
theorem Identified.generateItem {done rest : List (Direction × Scalar × WorldItem)}
    {item : Direction × Scalar × WorldItem} (hitems : a.items = done ++ item :: rest)
    (hprogress : a.Progress orderly granted done s) (h : a.Identified s)
    (hrun : a.generateItem item s = .ok u s') : a.Identified s' := by
  have hready : a.Ready orderly granted s := ⟨hprogress.kept.coherent, h⟩
  obtain ⟨direction, key, item⟩ := item
  cases item with
  | interface j =>
    -- An item before this one would have opened the module.
    refine (hready.generateInterface (fun hclosed => ?_) hrun).identified
    exact (keyIn_of_items hitems fun _ hmem => hclosed (hprogress.listed hmem)).symm
  | function f => exact (hready.generateWorldFunction hrun).identified
  | type id => exact (hready.generateWorldType hrun).identified

/-- **The items of the world are walked one by one**, and the modules are
identified after each. -/
theorem Identified.generateItems {done rest : List (Direction × Scalar × WorldItem)}
    (hitems : a.items = done ++ rest) (hprogress : a.Progress orderly granted done s)
    (h : a.Identified s) (hrun : rest.forM a.generateItem s = .ok u s') :
    a.Identified s' := by
  induction rest generalizing done s with
  | nil =>
    obtain ⟨-, rfl⟩ := pure_eq_ok.mp hrun
    exact h
  | cons item rest ih =>
    obtain ⟨_, s₁, hstep, hrest⟩ :=
      bind_eq_ok.mp (show (a.generateItem item >>= fun _ => rest.forM a.generateItem) s = _
        from hrun)
    have hmem : item ∈ a.items := hitems ▸ List.mem_append_right _ List.mem_cons_self
    exact ih (by simpa using hitems) (hprogress.generateItem hmem hstep)
      (h.generateItem hitems hprogress hstep) hrest

/-- **The last loop keeps the modules identified**, by induction on its
rounds. -/
theorem Identified.generatePending {items : List (Direction × Scalar × WorldItem)}
    {untaken : List Int} (hprogress : a.Progress orderly NoGrant items s) (h : a.Identified s)
    (hrun : a.generatePending untaken s = .ok u s') : a.Identified s' := by
  induction untaken, s using generatePending_induction with
  | @finished untaken s hfind =>
    rw [generatePending_of_none hfind] at hrun
    cases hrun
    exact h
  | @round untaken s j hfind hj hwaits ih =>
    rw [generatePending_of_some hfind] at hrun
    obtain ⟨_, s₁, htake, hrest⟩ := bind_eq_ok.mp hrun
    have hunlisted : a.Unlisted j := (hprogress.kept.coherent.pending j hwaits).1
    have hready : a.Ready orderly (· = j) { s with pending := s.pending.erase j } :=
      ⟨(hprogress.kept.regrant List.erase_subset fun o ho => Noted.take (j := j) ho).coherent, h⟩
    have h₁ := hready.generateInterface
      (fun _ => (keyIn_eq_none_iff.mpr hunlisted.1).symm) htake
    exact ih s₁ (hprogress.take hwaits htake).1 h₁.identified hrest

/-- **All modules of a run are identified.** -/
theorem identified_of_generateAll (orderly : a.graph.Orderly) {claims : Claims}
    (hexports : a.layout.HoldsExports claims) (hrun : a.generateAll { claims } = .ok u s) :
    a.Identified s := by
  obtain ⟨_, s₁, hitems, hpending⟩ := bind_eq_ok.mp hrun
  have hprogress : a.Progress orderly NoGrant a.items s₁ := progress_of_items hexports hitems
  have hstart : a.Progress orderly NoGrant [] { claims } := .start hexports
  have hempty : a.Identified { claims } := fun m hm => absurd hm List.not_mem_nil
  have hall : a.items = [] ++ a.items := rfl
  exact (hempty.generateItems hall hstart hitems).generatePending hprogress hpending

end Assignment

end ComponentBindings
