import ComponentBindings.Generate
import ComponentBindings.Proofs.Declared

/-!
# Where modules live

A location is computed while identifiers are claimed for it, so the
computation can fail where another name got there first. What it computes
does not depend on the claims, though. `Layout.interfacePlace` and
`Layout.worldPlace` are the locations as functions of the names, and
`Assignment.place` is the location of the module that declares the types of
an owner. Whenever a location is found, it is that one, and the claims that
were made for it are on record from then on (`Layout.Granted`). The claims
are what tells modules apart: the segments of a location are a scope, and a
name that holds an identifier in it has no rival there.

With the places known, every renderer of a run follows one placement
(`Assignment.renderer_follows`), whichever module it writes and whatever has
been generated already.
-/

namespace ComponentBindings

namespace Layout

variable {l : Layout} {claims claims' : Claims} {package : Option PackageName} {name : String}
  {direction : Direction}

/-- The segments of the modules of a package, claims aside. -/
def packagePlace (l : Layout) (package : Option PackageName) (direction : Direction) :
    Except Fault (List String) :=
  match package with
  | none => .ok (l.root direction)
  | some package => do
    let ns ← identifierOf .module package.ns
    let name ← identifierOf .module package.name
    return l.root direction ++ [ns, name]

/-- The name of the package object or trait of a module. -/
def containerOf (name : String) : Direction → Except Fault String
  | .imported => identifierOf .module name
  | .exported => identifierOf .type name

/-- **The location of an interface, claims aside.** -/
def interfacePlace (l : Layout) (package : Option PackageName) (name : String)
    (direction : Direction) : Except Fault Location := do
  let segments ← l.packagePlace package direction
  let module ← identifierOf .module name
  let container ← containerOf name direction
  return {
    package := ".".intercalate segments
    container
    segments := segments.map unescape
    fileName := unescape module ++ ".scala"
    direction }

/-- **The location of a world, claims aside.** -/
def worldPlace (l : Layout) (name : String) (direction : Direction) : Except Fault Location := do
  let module ← identifierOf .module name
  let container ← containerOf name direction
  return {
    package := ".".intercalate (match direction with
      | .imported => l.root direction
      | .exported => l.root direction ++ [module])
    container
    segments := (l.root direction ++ [module]).map unescape
    fileName := "package.scala"
    direction }

/-- The container at the location of a world is named after the world. -/
theorem container_of_worldPlace {location : Location}
    (h : l.worldPlace name direction = .ok location) :
    containerOf name direction = .ok location.container := by
  simp only [worldPlace, except_bind_eq_ok, except_pure_eq_ok] at h
  obtain ⟨_, -, container, hcontainer, rfl⟩ := h
  exact hcontainer

/-- The location of an interface in a direction is for that direction. -/
theorem direction_of_interfacePlace {location : Location}
    (h : l.interfacePlace package name direction = .ok location) :
    location.direction = direction := by
  simp only [interfacePlace, except_bind_eq_ok, except_pure_eq_ok] at h
  obtain ⟨_, -, _, -, _, -, rfl⟩ := h
  rfl

/-- The location of a world in a direction is for that direction. -/
theorem direction_of_worldPlace {location : Location}
    (h : l.worldPlace name direction = .ok location) : location.direction = direction := by
  simp only [worldPlace, except_bind_eq_ok, except_pure_eq_ok] at h
  obtain ⟨_, -, _, -, rfl⟩ := h
  rfl

/-- The parts of the location of an interface. -/
theorem parts_of_interfacePlace (h : l.interfacePlace package name direction = .ok location) :
    ∃ segments module, l.packagePlace package direction = .ok segments ∧
      identifierOf .module name = .ok module ∧ location.segments = segments.map unescape ∧
      location.fileName = unescape module ++ ".scala" := by
  simp only [interfacePlace, except_bind_eq_ok, except_pure_eq_ok] at h
  obtain ⟨segments, hsegments, module, hmodule, _, -, rfl⟩ := h
  exact ⟨segments, module, hsegments, hmodule, rfl, rfl⟩

/-- The parts of the location of a world. -/
theorem parts_of_worldPlace (h : l.worldPlace name direction = .ok location) :
    ∃ module, identifierOf .module name = .ok module ∧
      location.segments = (l.root direction).map unescape ++ [unescape module] ∧
      location.fileName = "package.scala" := by
  simp only [worldPlace, except_bind_eq_ok, except_pure_eq_ok] at h
  obtain ⟨module, hmodule, _, -, rfl⟩ := h
  exact ⟨module, hmodule, List.map_append .., rfl⟩

/-- **The claims that the location of an interface makes**: its namespace in
the root, its package in the namespace, and its file for its name and for its
full identity. -/
structure Granted (l : Layout) (claims : Claims) (package : Option PackageName) (name : String)
    (location : Location) : Prop where
  /-- The namespace is held in the root. -/
  ns : ∀ {p ns}, package = some p → identifierOf .module p.ns = .ok ns →
    claims.holder? (packageScope (l.root location.direction)) ns = some p.ns
  /-- The package is held in the namespace. -/
  packageName : ∀ {p ns name}, package = some p → identifierOf .module p.ns = .ok ns →
    identifierOf .module p.name = .ok name →
      claims.holder? (packageScope (l.root location.direction ++ [ns])) name = some p.name
  /-- The file is held by the name. -/
  module : ∀ {module}, identifierOf .module name = .ok module →
    claims.holder? (".".intercalate location.segments) module = some name
  /-- The file is held by the identity. -/
  identity : ∀ {module}, identifierOf .module name = .ok module →
    claims.holder? (".".intercalate location.segments ++ ":identity") module
      = some (package.elim name (·.identity name))

/-- Claims that are held are held where no less is. -/
theorem Granted.within {location : Location} (h : l.Granted claims package name location)
    (hmore : claims.Within claims') : l.Granted claims' package name location where
  ns hp hns := hmore (h.ns hp hns)
  packageName hp hns hname := hmore (h.packageName hp hns hname)
  module hmodule := hmore (h.module hmodule)
  identity hmodule := hmore (h.identity hmodule)

/-- Claims that are held are held after more claims. -/
theorem Granted.mono {location : Location} (h : l.Granted claims package name location)
    (hmore : claims <+: claims') : l.Granted claims' package name location :=
  h.within (Claims.within_of_isPrefix hmore)

/-- The segments of a package are those of its names, and its namespace and
the package in it are held. -/
theorem packageSegments_eq_ok {segments : List String}
    (h : l.packageSegments package direction claims = .ok segments claims') :
    l.packagePlace package direction = .ok segments ∧ claims <+: claims' ∧
      ∀ {p ns}, package = some p → identifierOf .module p.ns = .ok ns →
        claims'.holder? (packageScope (l.root direction)) ns = some p.ns ∧
        ∀ {name}, identifierOf .module p.name = .ok name →
          claims'.holder? (packageScope (l.root direction ++ [ns])) name = some p.name := by
  unfold packageSegments at h
  cases package with
  | none =>
    obtain ⟨rfl, rfl⟩ := pure_eq_ok.mp h
    exact ⟨rfl, List.prefix_rfl, fun hp => by cases hp⟩
  | some p =>
    simp only [bind_eq_ok, declare_eq_ok, pure_eq_ok] at h
    obtain ⟨ns, claims₁, ⟨hns, hclaimns⟩, name, claims₂, ⟨hname, hclaimname⟩, rfl, rfl⟩ := h
    have hmore := Claims.isPrefix_of_register hclaimname
    refine ⟨?_, (Claims.isPrefix_of_register hclaimns).trans hmore, ?_⟩
    · simp only [packagePlace, hns, hname]
      rfl
    · rintro _ ns' ⟨⟩ hns'
      obtain rfl : ns = ns' := Except.ok.inj (hns.symm.trans hns')
      refine ⟨Claims.holder?_of_isPrefix hmore (Claims.holder?_of_register hclaimns), ?_⟩
      intro name' hname'
      obtain rfl : name = name' := Except.ok.inj (hname.symm.trans hname')
      exact Claims.holder?_of_register hclaimname

/-- The container of a module is that of its name. -/
theorem containerName_eq_ok {module container : String}
    (hmodule : identifierOf .module name = .ok module)
    (h : containerName module name direction claims = .ok container claims') :
    containerOf name direction = .ok container ∧ claims = claims' := by
  cases direction with
  | imported =>
    obtain ⟨rfl, rfl⟩ := pure_eq_ok.mp h
    exact ⟨hmodule, rfl⟩
  | exported => exact convert_eq_ok.mp h

/-- The container of a module is named without a claim. -/
theorem containerName_of_ok {module container : String}
    (hmodule : identifierOf .module name = .ok module)
    (hcontainer : containerOf name direction = .ok container) :
    containerName module name direction claims = .ok container claims := by
  cases direction with
  | imported =>
    obtain rfl := Except.ok.inj (hmodule.symm.trans hcontainer)
    rfl
  | exported => exact convert_eq_ok.mpr ⟨hcontainer, rfl⟩

/-- **A location that is found for an interface** is that of its names, and
its claims are held. -/
theorem interfaceLocation_eq_ok {location : Location}
    (h : l.interfaceLocation package name direction claims = .ok location claims') :
    l.interfacePlace package name direction = .ok location ∧ claims <+: claims' ∧
      l.Granted claims' package name location := by
  simp only [interfaceLocation, bind_eq_ok, declare_eq_ok, claim_eq_ok] at h
  obtain ⟨segments, claims₁, hsegments, module, claims₂, ⟨hmodule, hclaim⟩, _, claims₃, hidentity,
    container, claims₄, hcontainer, hlocation⟩ := h
  obtain ⟨rfl, rfl⟩ := pure_eq_ok.mp hlocation
  obtain ⟨hplace, hfirst, hns⟩ := packageSegments_eq_ok hsegments
  obtain ⟨hcontainerOf, rfl⟩ := containerName_eq_ok hmodule hcontainer
  have hmore := Claims.isPrefix_of_register hclaim
  have hmore' := Claims.isPrefix_of_register hidentity
  refine ⟨?_, (hfirst.trans hmore).trans hmore', ?_⟩
  · simp only [interfacePlace, hplace, hmodule, hcontainerOf]
    rfl
  · refine ⟨?_, ?_, ?_, ?_⟩
    · intro p ns hp hnsid
      exact Claims.holder?_of_isPrefix (hmore.trans hmore') (hns hp hnsid).1
    · intro p ns packageName hp hnsid hnameid
      exact Claims.holder?_of_isPrefix (hmore.trans hmore') ((hns hp hnsid).2 hnameid)
    · intro module' hmodule'
      obtain rfl : module = module' := Except.ok.inj (hmodule.symm.trans hmodule')
      exact Claims.holder?_of_isPrefix hmore' (Claims.holder?_of_register hclaim)
    · intro module' hmodule'
      obtain rfl : module = module' := Except.ok.inj (hmodule.symm.trans hmodule')
      exact Claims.holder?_of_register hidentity

/-- **An interface whose claims are held is located again**, and no claim is
added. -/
theorem interfaceLocation_of_granted {location : Location}
    (hplace : l.interfacePlace package name direction = .ok location)
    (hgranted : l.Granted claims package name location) :
    l.interfaceLocation package name direction claims = .ok location claims := by
  simp only [interfacePlace, except_bind_eq_ok, except_pure_eq_ok] at hplace
  obtain ⟨segments, hsegments, module, hmodule, container, hcontainer, rfl⟩ := hplace
  have hpackage : l.packageSegments package direction claims = .ok segments claims := by
    cases package with
    | none =>
      obtain rfl := Except.ok.inj hsegments
      rfl
    | some p =>
      simp only [packagePlace, except_bind_eq_ok, except_pure_eq_ok] at hsegments
      obtain ⟨ns, hns, packageName, hpackageName, rfl⟩ := hsegments
      simp only [packageSegments, bind_eq_ok, declare_eq_ok, pure_eq_ok]
      exact ⟨ns, claims, ⟨hns, Claims.register_of_holder? (hgranted.ns rfl hns)⟩, packageName,
        claims,
        ⟨hpackageName, Claims.register_of_holder? (hgranted.packageName rfl hns hpackageName)⟩,
        rfl, rfl⟩
  have hname : containerName module name direction claims = .ok container claims :=
    containerName_of_ok hmodule hcontainer
  simp only [interfaceLocation, bind_eq_ok, declare_eq_ok, claim_eq_ok]
  exact ⟨segments, claims, hpackage, module, claims,
    ⟨hmodule, Claims.register_of_holder? (hgranted.module hmodule)⟩, (), claims,
    Claims.register_of_holder? (hgranted.identity hmodule), container, claims, hname, rfl⟩

/-- **The claim that the location of a world makes**: its segment in the root,
under a name that no namespace has. -/
def WorldGranted (l : Layout) (claims : Claims) (name : String) (direction : Direction) : Prop :=
  ∀ module, identifierOf .module name = .ok module →
    claims.holder? (packageScope (l.root direction)) module = some ("<world " ++ name ++ ">")

/-- **The claim of the exports**: their segment beside the base, under a name
that no name is a file for. -/
def HoldsExports (l : Layout) (claims : Claims) : Prop :=
  claims.holder? (".".intercalate l.base) exportsSegment = some ("<" ++ exportsSegment ++ ">")

/-- The claim of a world is held where no less is. -/
theorem WorldGranted.within (h : l.WorldGranted claims name direction)
    (hmore : claims.Within claims') : l.WorldGranted claims' name direction :=
  fun module hmodule => hmore (h module hmodule)

/-- The claim of a world is held after more claims. -/
theorem WorldGranted.mono (h : l.WorldGranted claims name direction) (hmore : claims <+: claims') :
    l.WorldGranted claims' name direction :=
  h.within (Claims.within_of_isPrefix hmore)

/-- **A location that is found for a world** is that of its name, and its
segment is held in the root. -/
theorem worldLocation_eq_ok {location : Location}
    (h : l.worldLocation name direction claims = .ok location claims') :
    l.worldPlace name direction = .ok location ∧ claims <+: claims' ∧
      l.WorldGranted claims' name direction := by
  simp only [worldLocation, bind_eq_ok, convert_eq_ok, claim_eq_ok] at h
  obtain ⟨module, _, ⟨hmodule, rfl⟩, _, claims₁, hclaim, container, claims₂, hcontainer,
    hlocation⟩ := h
  obtain ⟨rfl, rfl⟩ := pure_eq_ok.mp hlocation
  obtain ⟨hcontainerOf, rfl⟩ := containerName_eq_ok hmodule hcontainer
  refine ⟨?_, Claims.isPrefix_of_register hclaim, ?_⟩
  · simp only [worldPlace, hmodule, hcontainerOf]
    rfl
  · intro module' hmodule'
    obtain rfl : module = module' := Except.ok.inj (hmodule.symm.trans hmodule')
    exact Claims.holder?_of_register hclaim

/-- A world whose claim is held is located again, and no claim is added. -/
theorem worldLocation_of_granted {location : Location}
    (hplace : l.worldPlace name direction = .ok location)
    (hgranted : l.WorldGranted claims name direction) :
    l.worldLocation name direction claims = .ok location claims := by
  simp only [worldPlace, except_bind_eq_ok, except_pure_eq_ok] at hplace
  obtain ⟨module, hmodule, container, hcontainer, rfl⟩ := hplace
  have hname : containerName module name direction claims = .ok container claims :=
    containerName_of_ok hmodule hcontainer
  simp only [worldLocation, bind_eq_ok, convert_eq_ok, claim_eq_ok]
  exact ⟨module, claims, ⟨hmodule, rfl⟩, (), claims,
    Claims.register_of_holder? (hgranted module hmodule), container, claims, hname, rfl⟩

end Layout

namespace Assignment

variable {a : Assignment} {s s' : Session} {j : Int} {direction : Direction} {location : Location}

/-- **What an interface is called**: its package, and its name or else its
first key in the world. -/
def calledAs (a : Assignment) (j : Int) : Except Fault (Option PackageName × String) := do
  let i ← a.graph.interface j
  let package ← a.graph.packageNameOf j
  match (i.givenName.map Scalar.text <|> a.keyOf j).getD .null with
  | .text name => return (package, name)
  | .null => throw (.unnamedInterface j)
  | other => throw (.notText other)

/-- **The location of the module of an interface, claims aside.** -/
def interfacePlace (a : Assignment) (j : Int) (direction : Direction) : Except Fault Location := do
  let (package, name) ← a.calledAs j
  a.layout.interfacePlace package name direction

/-- The claims that the location of an interface makes are held. -/
def Granted (a : Assignment) (claims : Claims) (j : Int) (location : Location) : Prop :=
  ∃ package name, a.calledAs j = .ok (package, name) ∧
    a.layout.Granted claims package name location

/-- The direction of the module that declares the types of an interface. -/
def directionOf (a : Assignment) (j : Int) : Direction :=
  if a.lists .imported j then .imported else if a.lists .exported j then .exported else .imported

/-- **The place where the types of an owner are declared**: `Assignment.locate`
with the claims and notes left out. -/
def place (a : Assignment) : TypeOwner → Except Fault Location
  | .interface j => a.interfacePlace j (a.directionOf j)
  | .world id => do
    let world ← a.graph.world id
    let direction ← a.ownedDirection id world
    a.layout.worldPlace world.name direction

/-- **An owner whose claims are held**: it has a place, and the claims that its
location makes are on record. -/
def Held (a : Assignment) (claims : Claims) : TypeOwner → Prop
  | .interface j => ∃ location, a.interfacePlace j (a.directionOf j) = .ok location ∧
      a.Granted claims j location
  | .world id => ∃ world direction location, a.graph.world id = .ok world ∧
      a.ownedDirection id world = .ok direction ∧
      a.layout.worldPlace world.name direction = .ok location ∧
      a.layout.WorldGranted claims world.name direction

/-- Whether the world does not list an interface. -/
def Unlisted (a : Assignment) (j : Int) : Prop :=
  a.lists .imported j = false ∧ a.lists .exported j = false

/-- **An interface that will have a module**: the world lists it, its import
module is open, it has been noted, or this has been `granted` otherwise. -/
def Noted (a : Assignment) (granted : Int → Prop) : TypeOwner → Session → Prop
  | .interface j, s =>
    ¬ a.Unlisted j ∨ .interface j .imported ∈ s.opened ∨ j ∈ s.pending ∨ granted j
  | .world _, _ => True

/-- **A location that is found for an interface** is that of what it is
called, and its claims are held. -/
theorem interfaceLocation_eq_ok (h : a.interfaceLocation j direction s = .ok location s') :
    a.interfacePlace j direction = .ok location ∧ s.claims <+: s'.claims ∧
      s' = { s with claims := s'.claims } ∧ a.Granted s'.claims j location := by
  unfold interfaceLocation at h
  simp only [bind_eq_ok, Emission.ofExcept_eq_ok] at h
  obtain ⟨i, _, ⟨hi, rfl⟩, h⟩ := h
  split at h
  · obtain ⟨_, _, hthrow, -⟩ := bind_eq_ok.mp h
    exact absurd hthrow throw_ne_ok
  · simp only [bind_eq_ok, Emission.ofExcept_eq_ok] at h
    obtain ⟨package, _, ⟨hpackage, rfl⟩, h⟩ := h
    generalize hname : (i.givenName.map Scalar.text <|> a.keyOf j).getD .null = called at h
    cases called with
    | text name =>
      obtain ⟨claims, hfound, rfl⟩ := Emission.ofNaming_eq_ok.mp h
      obtain ⟨hplace, hmore, hgranted⟩ := Layout.interfaceLocation_eq_ok hfound
      have hcalled : a.calledAs j = .ok (package, name) := by
        unfold calledAs
        simp only [hi, hpackage, hname, except_bind_eq_ok, Except.ok.injEq, exists_eq_left']
        rfl
      refine ⟨?_, hmore, rfl, package, name, hcalled, hgranted⟩
      unfold interfacePlace
      simp only [hcalled, except_bind_eq_ok, Except.ok.injEq, exists_eq_left']
      exact hplace
    | null | bool _ | int _ | float _ | date _ | moment _ =>
      obtain ⟨_, _, -, hthrow⟩ := bind_eq_ok.mp h
      exact absurd hthrow throw_ne_ok

/-- An interface whose claims are held is located again, and nothing is
changed. -/
theorem interfaceLocation_of_granted (hplace : a.interfacePlace j direction = .ok location)
    (hgranted : a.Granted s.claims j location) :
    a.interfaceLocation j direction s = .ok location s := by
  obtain ⟨package, name, hcalled, hgranted⟩ := hgranted
  have hlayout : a.layout.interfacePlace package name direction = .ok location := by
    unfold interfacePlace at hplace
    simpa only [hcalled, except_bind_eq_ok, Except.ok.injEq, exists_eq_left'] using hplace
  have hlocation := Layout.interfaceLocation_of_granted hlayout hgranted
  simp only [calledAs, except_bind_eq_ok] at hcalled
  obtain ⟨i, hi, package', hpackage, hcalled⟩ := hcalled
  generalize hname : (i.givenName.map Scalar.text <|> a.keyOf j).getD .null = called at hcalled
  cases called with
  | text name' =>
    obtain ⟨rfl, rfl⟩ := Prod.mk.inj (Except.ok.inj hcalled)
    simp only [interfaceLocation, bind_eq_ok, Emission.ofExcept_eq_ok]
    refine ⟨i, s, ⟨hi, rfl⟩, ?_⟩
    rw [hname, if_neg (by simp)]
    simp only [bind_eq_ok, Emission.ofExcept_eq_ok]
    exact ⟨package', s, ⟨hpackage, rfl⟩, Emission.ofNaming_eq_ok.mpr ⟨s.claims, hlocation, rfl⟩⟩
  | null | bool _ | int _ | float _ | date _ | moment _ => cases hcalled

/-- **A location that is found for the selected world** is that of its name,
and its claim is held. -/
theorem worldLocation_eq_ok (h : a.worldLocation direction s = .ok location s') :
    a.layout.worldPlace a.world.name direction = .ok location ∧ s.claims <+: s'.claims ∧
      s' = { s with claims := s'.claims } ∧
      a.layout.WorldGranted s'.claims a.world.name direction := by
  obtain ⟨claims, hfound, rfl⟩ := Emission.ofNaming_eq_ok.mp h
  obtain ⟨hplace, hmore, hheld⟩ := Layout.worldLocation_eq_ok hfound
  exact ⟨hplace, hmore, rfl, hheld⟩

/-- An interface that is called something is an entry of the graph. -/
theorem interface_of_calledAs {called : Option PackageName × String}
    (h : a.calledAs j = .ok called) : ∃ i, a.graph.interface j = .ok i := by
  unfold calledAs at h
  obtain ⟨i, hi, -⟩ := except_bind_eq_ok.mp h
  exact ⟨i, hi⟩

/-- An interface that has a place is called something. -/
theorem calledAs_of_interfacePlace (h : a.interfacePlace j direction = .ok location) :
    ∃ package name, a.calledAs j = .ok (package, name) ∧
      a.layout.interfacePlace package name direction = .ok location := by
  obtain ⟨⟨package, name⟩, hcalled, hplace⟩ := except_bind_eq_ok.mp h
  exact ⟨package, name, hcalled, hplace⟩

/-- The place of an interface is that of what it is called. -/
theorem interfacePlace_of_calledAs {package : Option PackageName} {name : String}
    (hcalled : a.calledAs j = .ok (package, name)) :
    a.interfacePlace j direction = a.layout.interfacePlace package name direction := by
  rw [interfacePlace, hcalled]
  rfl

/-- An interface that is noted is noted at the end, unless it has a module or
was noted before. -/
theorem note_eq_ok {u : Unit} (h : note j s = .ok u s') :
    s' = { s with pending := s'.pending } ∧ s.pending <+: s'.pending ∧
      (∀ k ∈ s'.pending, k ∈ s.pending ∨ k = j) ∧
      (.interface j .imported ∈ s.opened ∨ j ∈ s'.pending) := by
  unfold note at h
  rw [modify_eq_ok] at h
  split at h
  · next hknown =>
    obtain rfl := h
    refine ⟨rfl, List.prefix_rfl, fun _ => .inl, ?_⟩
    simpa [Session.opened] using hknown
  · obtain rfl := h
    refine ⟨rfl, List.prefix_append _ _, ?_, .inr ?_⟩
    · intro k hk
      simpa using hk
    · simp

/-- The location of an interface in a direction is for that direction. -/
theorem direction_of_interfacePlace (h : a.interfacePlace j direction = .ok location) :
    location.direction = direction := by
  obtain ⟨_, _, -, hplace⟩ := calledAs_of_interfacePlace h
  exact Layout.direction_of_interfacePlace hplace

/-- An interface is looked for in the direction of its types, after it has been
noted if the world does not list it. -/
theorem locate_interface_eq_ok :
    a.locate (.interface j) s = .ok location s' ↔
      ∃ s₁, (¬ a.Unlisted j ∧ s₁ = s ∨ a.Unlisted j ∧ note j s = .ok () s₁) ∧
        a.interfaceLocation j (a.directionOf j) s₁ = .ok location s' := by
  unfold locate directionOf Unlisted
  cases himported : a.lists .imported j with
  | true => simp [himported]
  | false =>
    cases hexported : a.lists .exported j with
    | true => simp [himported, hexported]
    | false =>
      simp only [himported, hexported, Bool.false_eq_true, if_false, bind_eq_ok, and_self,
        not_true_eq_false, false_and, true_and, false_or]
      constructor
      · rintro ⟨⟨⟩, s₁, h⟩
        exact ⟨s₁, h⟩
      · rintro ⟨s₁, h⟩
        exact ⟨(), s₁, h⟩

/-- What `Assignment.locate` changes: claims are made, and an interface that
the world does not list may be noted. -/
structure Located (a : Assignment) (granted : Int → Prop) (owner : TypeOwner) (s s' : Session) :
    Prop where
  /-- Claims are added. -/
  claims : s.claims <+: s'.claims
  /-- Interfaces are noted at the end. -/
  pending : s.pending <+: s'.pending
  /-- Nothing else is changed. -/
  rest : s' = { s with claims := s'.claims, pending := s'.pending }
  /-- What is noted is an interface that the world does not list. -/
  waits : ∀ j ∈ s'.pending, j ∈ s.pending ∨ (a.Unlisted j ∧ ∃ i, a.graph.interface j = .ok i)
  /-- The owner will have a module. -/
  noted : a.Noted granted owner s'
  /-- The claims of the owner are held. -/
  held : a.Held s'.claims owner

/-- **An owner that is located is located at its place**, and will have a
module there. -/
theorem locate_eq_ok (granted : Int → Prop) {owner : TypeOwner}
    (h : a.locate owner s = .ok location s') :
    a.place owner = .ok location ∧ a.Located granted owner s s' := by
  cases owner with
  | world id =>
    simp only [locate, bind_eq_ok, Emission.ofExcept_eq_ok] at h
    obtain ⟨world, _, ⟨hworld, rfl⟩, direction, _, ⟨hdirection, rfl⟩, h⟩ := h
    obtain ⟨claims, hfound, rfl⟩ := Emission.ofNaming_eq_ok.mp h
    obtain ⟨hplace, hmore, hgranted⟩ := Layout.worldLocation_eq_ok hfound
    refine ⟨?_, hmore, List.prefix_rfl, rfl, fun _ => .inl, trivial,
      world, direction, location, hworld, hdirection, hplace, hgranted⟩
    unfold place
    simp only [hworld, hdirection, except_bind_eq_ok, Except.ok.injEq, exists_eq_left']
    exact hplace
  | interface j =>
    obtain ⟨s₁, hfirst, hlocation⟩ := locate_interface_eq_ok.mp h
    obtain ⟨hplace, hmore, hrest, hgranted⟩ := interfaceLocation_eq_ok hlocation
    have hheld : a.Held s'.claims (.interface j) := ⟨location, hplace, hgranted⟩
    have hpending : s'.pending = s₁.pending := by rw [hrest]
    -- An interface that the world does not list is noted before it is located.
    rcases hfirst with ⟨hlisted, rfl⟩ | ⟨hunlisted, hnote⟩
    · refine ⟨hplace, hmore, ?_, ?_, ?_, .inl hlisted, hheld⟩
      · rw [hpending]
      · rw [hrest]
      · rw [hpending]
        exact fun _ => .inl
    · obtain ⟨hrest₁, hmore₁, honly, hnoted⟩ := note_eq_ok hnote
      obtain ⟨package, name, hcalled, -⟩ := hgranted
      have hopened : s'.opened = s.opened := by
        rw [hrest, hrest₁]
        rfl
      refine ⟨hplace, ?_, ?_, ?_, ?_, .inr ?_, hheld⟩
      · rw [hrest₁] at hmore
        exact hmore
      · rw [hpending]
        exact hmore₁
      · rw [hrest, hrest₁]
      · intro k hk
        rw [hpending] at hk
        refine (honly k hk).imp id ?_
        rintro rfl
        exact ⟨hunlisted, interface_of_calledAs hcalled⟩
      · rw [hopened, hpending]
        exact hnoted.imp id .inl

/-- **What an owner is located at**, in whatever session. -/
def Locates (a : Assignment) (owner : TypeOwner) (location : Location) : Prop :=
  ∃ s s', a.locate owner s = .ok location s'

/-- An owner is located at its place only. -/
theorem place_of_locates {owner : TypeOwner} (h : a.Locates owner location) :
    a.place owner = .ok location := by
  obtain ⟨s, s', hlocate⟩ := h
  exact (locate_eq_ok (fun _ => False) hlocate).1

/-- An owner that is located is located at one place. -/
theorem Locates.iff_eq {owner : TypeOwner} (h : a.Locates owner location) {other : Location} :
    a.Locates owner other ↔ other = location := by
  constructor
  · intro hother
    exact Except.ok.inj ((place_of_locates hother).symm.trans (place_of_locates h))
  · rintro rfl
    exact h

/-- The claims of an owner are held where no less is. -/
theorem Held.within {claims claims' : Claims} {owner : TypeOwner} (h : a.Held claims owner)
    (hmore : claims.Within claims') : a.Held claims' owner := by
  cases owner with
  | interface j =>
    obtain ⟨location, hplace, package, name, hcalled, hgranted⟩ := h
    exact ⟨location, hplace, package, name, hcalled, hgranted.within hmore⟩
  | world id =>
    obtain ⟨world, direction, location, hworld, hdirection, hplace, hgranted⟩ := h
    exact ⟨world, direction, location, hworld, hdirection, hplace, hgranted.within hmore⟩

/-- The claims of an owner are held after more claims. -/
theorem Held.mono {claims claims' : Claims} {owner : TypeOwner} (h : a.Held claims owner)
    (hmore : claims <+: claims') : a.Held claims' owner :=
  h.within (Claims.within_of_isPrefix hmore)

/-- **An owner whose claims are held is located at its place.** -/
theorem Held.locates {claims : Claims} {owner : TypeOwner} (h : a.Held claims owner) :
    ∃ location, a.Locates owner location := by
  cases owner with
  | interface j =>
    obtain ⟨location, hplace, hgranted⟩ := h
    -- The interface is looked for with nothing but its claims on record.
    by_cases hunlisted : a.Unlisted j
    · refine ⟨location, { claims }, { claims, pending := [j] }, ?_⟩
      refine locate_interface_eq_ok.mpr ⟨{ claims, pending := [j] }, .inr ⟨hunlisted, rfl⟩, ?_⟩
      exact interfaceLocation_of_granted hplace hgranted
    · refine ⟨location, { claims }, { claims }, ?_⟩
      refine locate_interface_eq_ok.mpr ⟨{ claims }, .inl ⟨hunlisted, rfl⟩, ?_⟩
      exact interfaceLocation_of_granted hplace hgranted
  | world id =>
    obtain ⟨world, direction, location, hworld, hdirection, hplace, hgranted⟩ := h
    refine ⟨location, { claims }, { claims }, ?_⟩
    simp only [locate, bind_eq_ok, Emission.ofExcept_eq_ok]
    refine ⟨world, { claims }, ⟨hworld, rfl⟩, direction, { claims }, ⟨hdirection, rfl⟩, ?_⟩
    exact Emission.ofNaming_eq_ok.mpr
      ⟨claims, Layout.worldLocation_of_granted hplace hgranted, rfl⟩

/-- An interface that will have a module will have one while modules are
opened and interfaces noted. -/
theorem Noted.mono {granted : Int → Prop} {owner : TypeOwner} (hopened : s.opened ⊆ s'.opened)
    (hpending : s.pending ⊆ s'.pending) (h : a.Noted granted owner s) :
    a.Noted granted owner s' := by
  cases owner with
  | world _ => trivial
  | interface j => exact h.imp id (.imp (fun hj => hopened hj) (.imp (fun hj => hpending hj) id))

/-- **The placement of a run.** -/
def placement (a : Assignment) (orderly : a.graph.Orderly) (granted : Int → Prop) : Placement where
  graph := a.graph
  orderly := orderly
  place := a.place
  noted := a.Noted granted
  noted_mono hgrows := Noted.mono (fun _ h => hgrows.opened ▸ h) hgrows.pending.subset
  waits j := a.Unlisted j ∧ ∃ i, a.graph.interface j = .ok i

/-- **All renderers of a run follow its placement.** -/
theorem renderer_follows (orderly : a.graph.Orderly) (granted : Int → Prop) (location : Location) :
    (a.renderer location).Follows (a.placement orderly granted) where
  graph := rfl
  place h := (locate_eq_ok granted h).1
  grows h := by
    have hlocated := (locate_eq_ok granted h).2
    refine ⟨hlocated.claims, ?_, hlocated.pending, ?_⟩
    · rw [hlocated.rest]
    · rw [hlocated.rest]
  references h := by rw [(locate_eq_ok granted h).2.rest]
  instantiations h := by rw [(locate_eq_ok granted h).2.rest]
  noted h := (locate_eq_ok granted h).2.noted
  pending h := (locate_eq_ok granted h).2.waits

end Assignment

end ComponentBindings
