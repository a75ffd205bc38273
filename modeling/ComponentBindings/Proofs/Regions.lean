import ComponentBindings.Proofs.Closed
import ComponentBindings.Proofs.Permitted

/-!
# What a run may claim, note and open

The claims of a run are made in regions: the levels of the packages, the
files of a level by their identities, the members of a module, the parts of
a declared type, and the parameters of a function. `Assignment.Registers`
lists what is claimed in each of them, and for which names; a claim below a
type or a module presupposes the claims above it.

Beside its claims, a step of the run may open the one module that it is about,
and note interfaces that the world does not list. It notes them for a reason:
the world lists one of their types, or the module names one
(`Assignment.Wants`). All of this makes up the licence of a step
(`Assignment.licence`), and this module shows that it permits whatever locates
modules and owners.
-/

namespace ComponentBindings

/-- **A region of identifiers**, which claim them against each other. -/
inductive Region where
  /-- The packages and files below some directories. -/
  | level (segments : List String)
  /-- The files below some directories, by their full identities. -/
  | identities (segments : List String)
  /-- The types and functions of a module. -/
  | members (key : ModuleKey)
  /-- The parameters of the functions of a module that are called by an
  identifier. -/
  | params (key : ModuleKey) (function : String)
  /-- A part of a type that a module declares. -/
  | part (key : ModuleKey) (type : Int) (part : Part)
  deriving DecidableEq

namespace Assignment

/-- **What is claimed in a region**, once some claims have been made. -/
inductive Registers (a : Assignment) (claims : Claims) : Region → Claim → Prop
  /-- The root of the exports. -/
  | exports : Registers a claims (.level a.layout.base)
      ⟨".".intercalate a.layout.base, exportsSegment, "<" ++ exportsSegment ++ ">"⟩
  /-- The namespace of a package. -/
  | ns {j : Int} {p : PackageName} {ns : String} (direction : Direction) :
    a.graph.packageNameOf j = .ok (some p) → identifierOf .module p.ns = .ok ns →
      Registers a claims (.level ((a.layout.root direction).map unescape))
        ⟨packageScope (a.layout.root direction), ns, p.ns⟩
  /-- A package in its namespace. -/
  | package {j : Int} {p : PackageName} {ns name : String} (direction : Direction) :
    a.graph.packageNameOf j = .ok (some p) → identifierOf .module p.ns = .ok ns →
    identifierOf .module p.name = .ok name →
      Registers a claims (.level ((a.layout.root direction ++ [ns]).map unescape))
        ⟨packageScope (a.layout.root direction ++ [ns]), name, p.name⟩
  /-- The file of an interface. -/
  | file {j : Int} {package : Option PackageName} {name module : String} {direction : Direction}
    {segments : List String} : a.calledAs j = .ok (package, name) →
    a.layout.packagePlace package direction = .ok segments →
    identifierOf .module name = .ok module →
      Registers a claims (.level (segments.map unescape)) ⟨packageScope segments, module, name⟩
  /-- The file of an interface, for its identity. -/
  | identity {j : Int} {package : Option PackageName} {name module : String}
    {direction : Direction} {segments : List String} : a.calledAs j = .ok (package, name) →
    a.layout.packagePlace package direction = .ok segments →
    identifierOf .module name = .ok module →
      Registers a claims (.identities (segments.map unescape))
        ⟨packageScope segments ++ ":identity", module, package.elim name (·.identity name)⟩
  /-- The directory of a world. -/
  | world {w : World} {module : String} (direction : Direction) : w ∈ a.graph.worlds →
    identifierOf .module w.name = .ok module →
      Registers a claims (.level ((a.layout.root direction).map unescape))
        ⟨packageScope (a.layout.root direction), module, "<world " ++ w.name ++ ">"⟩
  /-- A type of a module. -/
  | type {key : ModuleKey} {location : Location} {id : Int} {t : TypeDef} {raw name : String} :
    a.Placed claims key location → id ∈ (a.contentAfter a.items key).types →
    a.graph.typeDef id = .ok t → t.name = some raw → identifierOf .type raw = .ok name →
      Registers a claims (.members key) ⟨location.path, name, raw⟩
  /-- A function of a module. -/
  | function {key : ModuleKey} {location : Location} {f : Function} {name : String} :
    a.Placed claims key location → f ∈ (a.contentAfter a.items key).functions →
    identifierOf .member f.name = .ok name →
      Registers a claims (.members key) ⟨location.path, name, f.name⟩
  /-- A parameter of a function of a module. -/
  | param {key : ModuleKey} {location : Location} {f : Function} {p : Param}
    {function name : String} : a.Placed claims key location →
    f ∈ (a.contentAfter a.items key).functions → identifierOf .member f.name = .ok function →
    p ∈ f.params → identifierOf .member p.name = .ok name →
      Registers a claims (.params key function)
        ⟨parameterScope location.path function, name, p.name⟩
  /-- What belongs to a type of a module, once the type holds its name. -/
  | part {key : ModuleKey} {location : Location} {id : Int} {t : TypeDef}
    {raw type identifier member : String} {p : Part} : a.Placed claims key location →
    id ∈ (a.contentAfter a.items key).types → a.graph.typeDef id = .ok t → t.name = some raw →
    identifierOf .type raw = .ok type → claims.holder? location.path type = some raw →
    a.graph.Fills t p identifier member →
      Registers a claims (.part key id p)
        ⟨p.scope (location.path ++ "." ++ unescape type), identifier, member⟩

variable {a : Assignment} {claims claims' : Claims} {key : ModuleKey} {region : Region} {c : Claim}

/-- What is claimed in a region is claimed there after more claims. -/
theorem Registers.mono (h : a.Registers claims region c) (hmore : claims <+: claims') :
    a.Registers claims' region c := by
  cases h with
  | exports => exact .exports
  | ns direction hpackage hns => exact .ns direction hpackage hns
  | package direction hpackage hns hname => exact .package direction hpackage hns hname
  | file hcalled hplace hmodule => exact .file hcalled hplace hmodule
  | identity hcalled hplace hmodule => exact .identity hcalled hplace hmodule
  | world direction hw hmodule => exact .world direction hw hmodule
  | type hplaced hid ht hraw hname => exact .type (hplaced.mono hmore) hid ht hraw hname
  | function hplaced hf hname => exact .function (hplaced.mono hmore) hf hname
  | param hplaced hf hfunction hp hname => exact .param (hplaced.mono hmore) hf hfunction hp hname
  | part hplaced hid ht hraw htype hheld hfills =>
    have hholds := Claims.holder?_of_isPrefix hmore hheld
    exact .part (hplaced.mono hmore) hid ht hraw htype hholds hfills

/-- **The types that a module is written with.** -/
def refsAt (a : Assignment) (key : ModuleKey) : List TypeRef :=
  (a.contentAfter a.items key).types.flatMap (fun id =>
    (a.graph.typeDef id).toOption.elim [] a.graph.refsOf) ++
  (a.contentAfter a.items key).functions.flatMap Function.refs

/-- What the declaration of a type is written with, its module is. -/
theorem refsOf_subset_refsAt {id : Int} {t : TypeDef}
    (hid : id ∈ (a.contentAfter a.items key).types) (ht : a.graph.typeDef id = .ok t) :
    a.graph.refsOf t ⊆ a.refsAt key := by
  refine fun ref href => List.mem_append_left _ (List.mem_flatMap.mpr ⟨id, hid, ?_⟩)
  rw [ht]
  exact href

/-- What a function is written with, its module is. -/
theorem refs_subset_refsAt {f : Function} (hf : f ∈ (a.contentAfter a.items key).functions) :
    f.refs ⊆ a.refsAt key :=
  fun _ href => List.mem_append_right _ (List.mem_flatMap.mpr ⟨f, hf, href⟩)

/-- **A reason to note an interface**: it owns a type that the world lists, or
that the module names. -/
def Wants (a : Assignment) (key : ModuleKey) (j : Int) : Prop :=
  ∃ id t, a.graph.typeDef id = .ok t ∧ t.owner = some (.interface j) ∧
    ((∃ direction scalar, (direction, scalar, .type id) ∈ a.items) ∨
      t.name.isSome = true ∧ a.graph.Names (a.refsAt key) id)

/-- A module that may be opened: no resource is listed where it would be
exported. -/
def MayOpen (a : Assignment) : ModuleKey → Prop
  | .interface j .exported => ∀ i, a.graph.interface j = .ok i → ∀ id ∈ i.types.map Prod.snd,
      ¬ a.graph.HasResource id
  | _ => True

/-- **What a step of the run may do** that is about a module. -/
def licence (a : Assignment) (key : ModuleKey) : Licence where
  claims claims c := ∃ region, a.Registers claims region c
  claims_mono hmore := fun ⟨region, hregisters⟩ => ⟨region, hregisters.mono hmore⟩
  notes j := a.Unlisted j ∧ key ≠ .interface j .imported ∧ a.Wants key j
  opens key' := key' = key ∧ a.MayOpen key'

/-- What is registered in a region may be claimed. -/
theorem Registers.allowed (h : a.Registers claims region c) :
    (a.licence key).claims claims c :=
  ⟨region, h⟩

variable {s s' before : Session} {j : Int} {direction : Direction} {location : Location}

/-! ## Locations -/

/-- The direction of the types of a world is found. -/
theorem neverCollides_ownedDirection (id : Int) (world : World) :
    NeverCollides (a.ownedDirection id world) := by
  unfold ownedDirection
  split
  swap
  · trivial
  refine NeverCollides.bind (EndsIn.filterMapM fun entry _ => ?_) fun _ _ => trivial
  exact NeverCollides.bind (a.graph.neverCollides_typeDef entry.1) fun _ _ => trivial

/-- The segments of a package are claimed level by level. -/
theorem permits_packageSegments {package : Option PackageName}
    (hpackage : a.graph.packageNameOf j = .ok package) (direction : Direction) :
    (a.licence key).Permits before
      (Emission.ofNaming (a.layout.packageSegments package direction)) := by
  unfold Layout.packageSegments
  cases package with
  | none => exact .pure _
  | some p =>
    simp only [Emission.ofNaming_bind]
    refine .declare_bind (fun ns hns => (Registers.ns direction hpackage hns).allowed)
      fun ns after hns _ _ => ?_
    refine .declare_bind (fun name hname =>
      (Registers.package direction hpackage hns hname).allowed) ?_
    exact fun name _ _ _ _ => .pure _

/-- A container is named without a claim. -/
theorem permits_containerName {module name : String} (direction : Direction) :
    (a.licence key).Permits before
      (Emission.ofNaming (Layout.containerName module name direction)) := by
  cases direction with
  | imported => exact .pure _
  | exported => exact .convert

/-- **The module of an interface is located** by claiming its segments, its file
and its identity. -/
theorem permits_interfaceLocation (j : Int) (direction : Direction) :
    (a.licence key).Permits before (a.interfaceLocation j direction) := by
  refine .ofExcept_bind (a.graph.neverCollides_interface j) fun i hi => ?_
  dsimp only
  split
  · refine .throw_bind ?_
    trivial
  refine .ofExcept_bind (a.graph.neverCollides_packageNameOf j) fun package hpackage => ?_
  generalize hname : (i.givenName.map Scalar.text <|> a.keyOf j).getD .null = called
  cases called with
  | text name =>
    have hcalled : a.calledAs j = .ok (package, name) := by
      unfold calledAs
      simp only [hi, hpackage, hname, except_bind_eq_ok, Except.ok.injEq, exists_eq_left']
      rfl
    unfold Layout.interfaceLocation
    simp only [Emission.ofNaming_bind]
    refine (permits_packageSegments hpackage direction).bind fun segments hsegments => ?_
    obtain ⟨s, s', hsegments⟩ := hsegments
    obtain ⟨claims, hsegments, -⟩ := Emission.ofNaming_eq_ok.mp hsegments
    have hplace := (Layout.packageSegments_eq_ok hsegments).1
    refine .declare_bind (fun module hmodule =>
      (Registers.file hcalled hplace hmodule).allowed) fun module _ hmodule _ _ => ?_
    refine (Licence.Permits.claim
      (Registers.identity hcalled hplace hmodule).allowed).bind fun _ _ => ?_
    exact (permits_containerName direction).bind fun _ _ => .pure _
  | null | bool _ | int _ | float _ | date _ | moment _ =>
    exact (permits_packageSegments hpackage direction).bind fun _ _ => .throw trivial

/-- **The module of a world is located** by claiming its directory. -/
theorem permits_worldLocation {w : World} (hw : w ∈ a.graph.worlds) (direction : Direction) :
    (a.licence key).Permits before
      (Emission.ofNaming (a.layout.worldLocation w.name direction)) := by
  unfold Layout.worldLocation
  simp only [Emission.ofNaming_bind]
  refine Licence.Permits.convert.bind fun module hmodule => ?_
  obtain ⟨s, s', hmodule⟩ := hmodule
  simp only [Emission.ofNaming_eq_ok, convert_eq_ok] at hmodule
  obtain ⟨_, ⟨hmodule, -⟩, -⟩ := hmodule
  refine (Licence.Permits.claim (Registers.world direction hw hmodule).allowed).bind fun _ _ => ?_
  exact (permits_containerName direction).bind fun _ _ => .pure _

/-- **An interface is noted** where there is a reason to, unless the module in
question is its own. -/
theorem permits_note (hnotes : key ≠ .interface j .imported → (a.licence key).notes j)
    (hopen : key = .interface j .imported → key ∈ before.opened) :
    (a.licence key).Permits before (note j) := by
  refine .modify fun s hs => ?_
  by_cases hknown : s.modules.any (·.key = .interface j .imported) || s.pending.contains j
  · rw [if_pos hknown]
    exact .refl _ s
  rw [if_neg hknown]
  obtain ⟨hclosed, hnew⟩ : .interface j .imported ∉ s.opened ∧ j ∉ s.pending := by
    simpa [Session.opened] using hknown
  refine ⟨List.prefix_rfl, fun _ => .inl, ⟨[], (List.append_nil _).symm, by simp⟩,
    List.prefix_append _ _, fun k hk => ?_, fun hnodup => ?_⟩
  · cases List.mem_append.mp hk with
    | inl hk => exact .inl hk
    | inr hk =>
      obtain rfl := List.mem_singleton.mp hk
      have hother : key ≠ .interface k .imported := by
        intro hself
        exact hclosed (hself ▸ hs.opened (hopen hself))
      exact .inr ⟨hnotes hother, hclosed⟩
  · show (s.pending ++ [j]).Nodup
    rw [← List.concat_eq_append]
    exact hnodup.concat hnew

/-- **An owner is located** in a step that may note it. -/
theorem permits_locate {owner : TypeOwner}
    (hnotes : ∀ j, owner = .interface j → a.Unlisted j → key ≠ .interface j .imported →
      a.Wants key j)
    (hopen : ∀ j, owner = .interface j → a.Unlisted j → key = .interface j .imported →
      key ∈ before.opened) :
    (a.licence key).Permits before (a.locate owner) := by
  cases owner with
  | world id =>
    refine .ofExcept_bind (a.graph.neverCollides_world id) fun w hw => ?_
    refine .ofExcept_bind (neverCollides_ownedDirection id w) fun direction _ => ?_
    exact permits_worldLocation (Graph.mem_of_lookup hw) direction
  | interface j =>
    have hlocated : ∀ direction, (a.licence key).Permits before (a.interfaceLocation j direction) :=
      permits_interfaceLocation j
    show (a.licence key).Permits before
      (if a.lists .imported j then _ else if a.lists .exported j then _ else _)
    split
    · exact hlocated .imported
    next himported =>
    split
    · exact hlocated .exported
    next hexported =>
    have hunlisted : a.Unlisted j := by simp [Unlisted, himported, hexported]
    refine (permits_note (fun hkey => ?_) (hopen j rfl hunlisted)).bind fun _ _ =>
      hlocated .imported
    exact ⟨hunlisted, hkey, hnotes j rfl hunlisted hkey⟩

end Assignment

end ComponentBindings
