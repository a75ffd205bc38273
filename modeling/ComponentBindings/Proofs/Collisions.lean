import ComponentBindings.Proofs.Legible
import ComponentBindings.Proofs.Worklist

/-!
# Collisions without false alarms

A run ends with a collision when a name claims an identifier that another name
holds in the same scope. That the two are in conflict is not evident, since a
scope is just a text. Here the claims of a run are followed from the first one to
the one that was refused (`Assignment.Accounted`). Each of them is registered in a
region, also the one that was refused, and a scope tells its region. So the two
names of a collision both claim their identifier in one region.

The types and the functions of a module share a region, and with it a scope. They
never collide all the same: a type starts with a capital, and a function does
not.
-/

namespace ComponentBindings

/-- The session that a computation ends in, whatever comes of it. -/
def Session.after {α : Type} : EStateM.Result Fault Session α → Session
  | .ok _ s | .error _ s => s

/-! ## Types and functions -/

/-- **A type and a function never have the same identifier**, if the words of
their names start with letters. -/
theorem identifierOf_type_ne_member {name name' identifier : String} (h : IsWitName name)
    (h' : IsWitName name') (htype : identifierOf .type name = .ok identifier) :
    identifierOf .member name' ≠ .ok identifier := by
  intro hmember
  obtain ⟨hne, hne', hlist⟩ := h.1.join_eq h'.1 htype hmember
  have hcapital := isUpper_of_head?_flatMap (fun _ hmem _ => h.1.isWordPart_of_mem hmem) h.2
  obtain ⟨first, rest, hwords⟩ := List.exists_cons_of_ne_nil hne
  obtain ⟨first', rest', hwords'⟩ := List.exists_cons_of_ne_nil hne'
  have hmem : first' ∈ wordsOf name'.toList := hwords' ▸ List.mem_cons_self
  obtain ⟨c, more, rfl⟩ := List.exists_cons_of_ne_nil (h'.1.ne_nil_of_mem hmem)
  -- The first character of a member is in lower case, as in its first word.
  have hlower := (upperChar_of_isWordPart (h'.1.isWordPart_of_mem hmem List.mem_cons_self)).2.2.2.2
  rw [hwords] at hlist hcapital
  rw [hwords'] at hlist
  have hupper := hcapital c (by
    show c ∈ (Convention.type.join (first :: rest)).head?
    rw [hlist]
    rfl)
  rw [hlower] at hupper
  cases hupper

namespace Assignment

variable {a : Assignment} {orderly : a.graph.Orderly} {s s' : Session} {key : ModuleKey}
  {before : Session} {js : List Int} {r : EStateM.Result Fault Session Unit}

/-- **The identity of an interface**, by which the layout tells it from others
that would have the same file. -/
def fullIdentity (a : Assignment) (j : Int) : Except Fault String := do
  let (package, name) ← a.calledAs j
  return package.elim name (·.identity name)

/-- **No two interfaces have one identity.** -/
def IdentifiedApart (a : Assignment) : Prop :=
  ∀ j j' identity, a.fullIdentity j = .ok identity → a.fullIdentity j' = .ok identity → j = j'

/-- Interfaces with identities of their own are called apart. -/
theorem IdentifiedApart.calledApart (h : a.IdentifiedApart) : a.CalledApart := by
  intro j j' called hcalled hcalled'
  refine h j j' (called.1.elim called.2 (·.identity called.2)) ?_ ?_
  · rw [fullIdentity, hcalled]
    rfl
  · rw [fullIdentity, hcalled']
    rfl

/-! ## The claims of a run -/

/-- What is registered in some region stays so after more claims. -/
theorem exists_registers_mono {before after : Claims} {c : Claim} (hmore : before <+: after)
    (h : ∃ region, a.Registers before region c) : ∃ region, a.Registers after region c :=
  h.imp fun _ hregisters => hregisters.mono hmore

/-- **What all steps of a run may do**: to claim what is registered in a region,
and to note interfaces that the world does not list. -/
def runLicence (a : Assignment) : Licence where
  claims claims c := ∃ region, a.Registers claims region c
  claims_mono := @exists_registers_mono a
  notes j := a.Unlisted j
  opens _ := True

/-- What a step may do that is about a module, a run may do. -/
theorem allows_run (h : (a.licence key).Allows s s') : a.runLicence.Allows s s' where
  claims := h.claims
  claimed := h.claimed
  opened := by
    obtain ⟨keys, hkeys, -⟩ := h.opened
    exact ⟨keys, hkeys, fun _ _ => trivial⟩
  pending := h.pending
  noted j hj := (h.noted j hj).imp_right fun hnew => ⟨hnew.1.1, hnew.2⟩
  nodup := h.nodup

/-- What is permitted in a step that is about a module is permitted in a run. -/
theorem permits_run {α : Type} {x : Emission α} (h : (a.licence key).Permits before x) :
    a.runLicence.Permits before x where
  ok hs hrun := allows_run (h.ok hs hrun)
  error hs hrun := (h.error hs hrun).imp_left allows_run

/-- **A session whose claims are registered in regions**, and in which no
interface waits that the world lists. -/
structure Registered (a : Assignment) (s : Session) : Prop where
  /-- The root of the exports is held. -/
  exports : a.layout.HoldsExports s.claims
  /-- The claims are registered. -/
  claims : ∀ c ∈ s.claims, ∃ region, a.Registers s.claims region c
  /-- The interfaces that wait are not listed. -/
  pending : ∀ j ∈ s.pending, a.Unlisted j

/-- What a run may do keeps the claims registered. -/
theorem Registered.step (h : a.Registered s) (hallows : a.runLicence.Allows s s') :
    a.Registered s' where
  exports := Claims.holder?_of_isPrefix hallows.claims h.exports
  claims c hc := by
    cases hallows.claimed c hc with
    | inl hold => exact exists_registers_mono hallows.claims (h.claims c hold)
    | inr hnew => exact hnew
  pending j hj := (hallows.noted j hj).elim (h.pending j) (·.1)

/-- The claims stay registered when an interface has been taken. -/
theorem Registered.taken {j : Int} {rest : List Int} (h : a.Registered s)
    (hpending : s.pending = j :: rest) : a.Registered { s with pending := rest } where
  exports := h.exports
  claims := h.claims
  pending k hk := h.pending k (hpending ▸ List.mem_cons_of_mem j hk)

/-- **A result that is accounted for**: its claims are registered in regions, and
if it is a collision, so is the claim that was refused. -/
structure Accounted (a : Assignment) (r : EStateM.Result Fault Session Unit) : Prop where
  /-- The claims are registered. -/
  registered : a.Registered (Session.after r)
  /-- A collision is allowed for. -/
  fault : ∀ {fault s}, r = .error fault s → a.runLicence.AllowsFault s.claims fault

/-- What is permitted in a run is accounted for. -/
theorem Registered.accounted (h : a.Registered s) {x : Emission Unit}
    (hx : a.runLicence.Permits s x) : a.Accounted (x s) := by
  cases hrun : x s with
  | ok u s' => exact ⟨h.step (hx.ok (.refl s) hrun), fun herror => by cases herror⟩
  | error fault s' =>
    obtain ⟨hallows, hfault⟩ := hx.error (.refl s) hrun
    refine ⟨h.step hallows, ?_⟩
    rintro _ _ ⟨⟩
    exact hfault

/-- **The last loop is accounted for**, round by round. -/
theorem Rounds.accounted (hrounds : a.Rounds s js r) (h : a.Registered s) : a.Accounted r := by
  induction hrounds with
  | done hpending => exact ⟨h, fun herror => by cases herror⟩
  | @fails s s' j rest fault hpending _ hround =>
    have hunlisted := h.pending j (hpending ▸ List.mem_cons_self)
    rw [← hround]
    exact (h.taken hpending).accounted (permits_run (permits_take hunlisted))
  | @opens s s₁ j rest js r hpending _ hround _ _ ih =>
    have hunlisted := h.pending j (hpending ▸ List.mem_cons_self)
    have hopens := (permits_run (permits_take hunlisted)).ok (.refl _) hround
    exact ih ((h.taken hpending).step hopens)

/-- **A run is accounted for**, from the claim of the exports to its end. -/
theorem accounted_generateAll (orderly : a.graph.Orderly) (hmem : a.world ∈ a.graph.worlds)
    {claims : Claims} (h : a.Registered { claims }) : a.Accounted (a.generateAll { claims }) := by
  have hpermits : a.runLicence.Permits { claims } (a.items.forM a.generateItem) :=
    .forM fun item hitem => permits_run (permits_generateItem hmem hitem)
  have hitems := h.accounted hpermits
  cases hrun : a.items.forM a.generateItem { claims } with
  | error fault s =>
    rw [generateAll, bind_eq_error.mpr (.inl hrun), ← hrun]
    exact hitems
  | ok u s =>
    rw [hrun] at hitems
    have hwalked : a.Walked orderly a.items s := walked_of_items hmem h.exports hrun
    obtain ⟨js, -, -, hrounds⟩ := hwalked.rounds hrun
    exact hrounds.accounted hitems.registered

end Assignment

/-- A run that fails has a session that it fails in. -/
theorem generateWorld_of_error {g : Graph} {o : Options} {world : World} {fault : Fault}
    (hworld : selectWorld g o = .ok world) (h : generateModules g o = .error fault) :
    ∃ s, generateWorld g o world {} = .error fault s := by
  unfold generateModules at h
  rw [hworld] at h
  cases hrun : generateWorld g o world {} with
  | ok u s => simp [hrun, bind, Except.bind] at h
  | error fault' s =>
    obtain rfl : fault' = fault := by simpa [hrun, bind, Except.bind] using h
    exact ⟨s, rfl⟩

/-- **A run over the selected world is accounted for.** -/
theorem accounted_generateWorld {g : Graph} {o : Options} {world : World} (orderly : g.Orderly)
    (hworld : selectWorld g o = .ok world) :
    (Assignment.ofOptions g o world).Accounted (generateWorld g o world {}) := by
  have hstart : Layout.start o.baseSegments [] = .ok ⟨o.baseSegments⟩
      [⟨".".intercalate o.baseSegments, exportsSegment, "<" ++ exportsSegment ++ ">"⟩] := rfl
  rw [generateWorld_eq hstart]
  refine Assignment.accounted_generateAll orderly (mem_of_selectWorld hworld) ⟨?_, ?_, ?_⟩
  · exact Layout.holdsExports_of_start hstart
  · intro c hc
    rw [List.mem_singleton.mp hc]
    exact ⟨_, .exports⟩
  · exact fun _ hj => absurd hj List.not_mem_nil

/-- **Collisions are no false alarms.** Let the names be those of an interface
definition, the interfaces have identities of their own, and the types that an
interface or a world lists have names of their own. Then every claim of a run is
registered in a region, and what is registered in one scope is registered in one
region. A run that ends with a collision does so for two names that both claim
the identifier in one region. They are never those of a type and a function of
one module. -/
theorem collisions_of_generateWorld {document : Document} {g : Graph} {o : Options}
    {world : World} (hdocument : Graph.ofDocument document = .ok g)
    (hworld : selectWorld g o = .ok world)
    (hnames : (Assignment.ofOptions g o world).WitNamed)
    (hapart : (Assignment.ofOptions g o world).IdentifiedApart) (hlists : g.ListsApart) :
    let a := Assignment.ofOptions g o world
    let claims := (Session.after (generateWorld g o world {})).claims
    (∀ c ∈ claims, ∃ region, a.Registers claims region c) ∧
    (∀ region region' c c', a.Registers claims region c → a.Registers claims region' c' →
      c.scope = c'.scope → region = region') ∧
    (∀ scope identifier holder raw,
      generateModules g o = .error (.nameCollision scope identifier holder raw) →
        holder ≠ raw ∧ ⟨scope, identifier, holder⟩ ∈ claims ∧
          ∃ region, a.Registers claims region ⟨scope, identifier, holder⟩ ∧
            a.Registers claims region ⟨scope, identifier, raw⟩) ∧
    ∀ key id t raw name f, id ∈ (a.contentAfter a.items key).types → g.typeDef id = .ok t →
      t.name = some raw → identifierOf .type raw = .ok name →
        f ∈ (a.contentAfter a.items key).functions → identifierOf .member f.name ≠ .ok name := by
  intro a claims
  have orderly : a.graph.Orderly := Graph.orderly_of_ofDocument hdocument
  have hmem : a.world ∈ a.graph.worlds := mem_of_selectWorld hworld
  have haccounted : a.Accounted (generateWorld g o world {}) :=
    accounted_generateWorld orderly hworld
  have hregions : ∀ region region' c c', a.Registers claims region c →
      a.Registers claims region' c' → c.scope = c'.scope → region = region' :=
    fun _ _ _ _ h h' hscope => h.region_eq orderly hmem (Layout.legibleBase_ofOptions o)
      haccounted.registered.exports hnames hapart.calledApart hlists h' hscope
  refine ⟨haccounted.registered.claims, hregions, ?_, ?_⟩
  · intro scope identifier holder raw hcollision
    obtain ⟨s, hrun⟩ := generateWorld_of_error hworld hcollision
    obtain ⟨hholder, hne, region, hraw⟩ := haccounted.fault hrun _ _ _ _ rfl
    have hclaims : s.claims = claims := by
      show _ = (Session.after (generateWorld g o world {})).claims
      rw [hrun]
      rfl
    rw [hclaims] at hholder hraw
    have hclaimed := Claims.mem_of_holder? hholder
    obtain ⟨region', hregisters⟩ := haccounted.registered.claims _ hclaimed
    obtain rfl := hregions _ _ _ _ hregisters hraw rfl
    exact ⟨hne, hclaimed, region', hregisters, hraw⟩
  · intro key id t raw name f hid ht hraw hname hf
    have htype := hnames.type t (Graph.mem_of_typeDef ht) raw hraw
    have hfunction := hnames.function f (Assignment.hasFunction_of_mem hmem hf)
    exact identifierOf_type_ne_member htype hfunction hname

/-! ## Two functions with one identifier -/

/-- A world that imports an interface whose functions are both called `xY`. -/
def clashDocument : Document :=
  .object [
    (.text "packages", .list [.object [(.text "name", .string "a:b")]]),
    (.text "interfaces", .list [
      .object [(.text "name", .string "api"), (.text "package", .int 0),
        (.text "functions", .object [(.text "x-y", .object [(.text "name", .string "x-y")]),
          (.text "X-y", .object [(.text "name", .string "X-y")])])]]),
    (.text "worlds", .list [.object [(.text "name", .string "w"), (.text "package", .int 0),
      (.text "imports", .object [
        (.text "api", .object [(.text "interface", .object [(.text "id", .int 0)])])])]])]

/-- The world of that document. -/
def clashWorld : World where
  id := 0
  name := "w"
  package := some 0
  imports := [(.text "api", .interface 0)]
  exports := []
  docs := none

/-- The interface of that document. -/
def clashInterface : Interface where
  id := 0
  name := some "api"
  package := some 0
  types := []
  functions := [(.text "x-y", ⟨"x-y", .freestanding, [], [], none⟩),
    (.text "X-y", ⟨"X-y", .freestanding, [], [], none⟩)]
  docs := none

/-- The graph of that document. -/
def clashGraph : Graph where
  packages := [⟨0, ⟨"a", "b", none⟩, [], [], none⟩]
  interfaces := [clashInterface]
  types := []
  worlds := [clashWorld]

/-- What a run over that graph assigns to modules. -/
def clashAssignment : Assignment := ⟨clashGraph, clashWorld, ⟨["componentmodel"]⟩⟩

/-- The run ends with a collision. -/
theorem generateModules_clash : generateModules clashGraph {}
    = .error (.nameCollision "componentmodel/a/b/api.scala" "xY" "x-y" "X-y") := rfl

/-- The graph has one interface. -/
theorem interface_clash {j : Int} {i : Interface} (h : clashGraph.interface j = .ok i) :
    j = 0 ∧ i = clashInterface := by
  obtain ⟨hk, hj⟩ := getElem?_of_entryAt (entryAt_of_elim_eq_ok h)
  rw [← hj]
  generalize j.toNat = k at hk
  match k, hk with
  | 0, hk => exact ⟨rfl, (Option.some.inj hk).symm⟩

/-- The names of the graph are those of an interface definition. -/
theorem witNamed_clash : clashAssignment.WitNamed where
  called {j package name} hcalled := by
    obtain ⟨i, hi⟩ := Assignment.interface_of_calledAs hcalled
    obtain ⟨rfl, -⟩ := interface_clash hi
    obtain ⟨-, rfl⟩ := Prod.mk.inj (Except.ok.inj
      (show .ok (some ⟨"a", "b", none⟩, "api") = Except.ok (package, name) from hcalled))
    decide
  package p hp := by
    rw [List.mem_singleton.mp hp]
    decide
  world w hw := by
    rw [List.mem_singleton.mp hw]
    decide
  type t ht := absurd ht List.not_mem_nil
  function f hf := by
    cases hf with
    | interface hi hentry =>
      obtain rfl := List.mem_singleton.mp hi
      rcases List.mem_pair.mp hentry with hentry | hentry <;>
        obtain ⟨-, rfl⟩ := Prod.mk.inj hentry <;> decide
    | world hw hentry =>
      obtain rfl := List.mem_singleton.mp hw
      cases (Prod.mk.inj (List.mem_singleton.mp hentry)).2

/-- The collision is one of two functions, whose claims are in one region. -/
theorem collisions_of_generateWorld_clash :
    Graph.ofDocument clashDocument = .ok clashGraph ∧
      selectWorld clashGraph {} = .ok clashWorld ∧ clashAssignment.WitNamed ∧
      clashAssignment.IdentifiedApart ∧ clashGraph.ListsApart ∧
      ∃ region, clashAssignment.Registers
          (Session.after (generateWorld clashGraph {} clashWorld {})).claims region
          ⟨"componentmodel/a/b/api.scala", "xY", "x-y"⟩ ∧
        clashAssignment.Registers
          (Session.after (generateWorld clashGraph {} clashWorld {})).claims region
          ⟨"componentmodel/a/b/api.scala", "xY", "X-y"⟩ := by
  have hdocument : Graph.ofDocument clashDocument = .ok clashGraph := rfl
  have hworld : selectWorld clashGraph {} = .ok clashWorld := rfl
  have honly : ∀ j identity, clashAssignment.fullIdentity j = .ok identity → j = 0 := by
    intro j identity hidentity
    obtain ⟨called, hcalled, -⟩ := except_bind_eq_ok.mp hidentity
    obtain ⟨i, hi⟩ := Assignment.interface_of_calledAs hcalled
    exact (interface_clash hi).1
  have hapart : clashAssignment.IdentifiedApart := fun j j' identity h h' =>
    (honly j identity h).trans (honly j' identity h').symm
  have hlists : clashGraph.ListsApart := by
    refine ⟨fun i hi id hid => ?_, fun w hw key id _ _ hentry => ?_⟩
    · rw [List.mem_singleton.mp hi] at hid
      exact absurd hid List.not_mem_nil
    · rw [List.mem_singleton.mp hw] at hentry
      cases (Prod.mk.inj (List.mem_singleton.mp hentry)).2
  obtain ⟨-, -, hcollision, -⟩ :=
    collisions_of_generateWorld hdocument hworld witNamed_clash hapart hlists
  obtain ⟨-, -, hregion⟩ := hcollision _ _ _ _ generateModules_clash
  exact ⟨hdocument, hworld, witNamed_clash, hapart, hlists, hregion⟩

end ComponentBindings
