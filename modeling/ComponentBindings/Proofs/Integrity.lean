import ComponentBindings.Proofs.Apart

/-!
# Referential integrity

A type of an interface is declared in one module and referred to from many,
before that module exists and after. This module says that the two ends meet.
Every type that a generated interface lists is declared once, at the location
that is found for the interface; and whatever a module refers to is declared
by a returned module, under the name and at the location that the reference
gives.

A reference is plain when it stands at the location of the declaration. One
would like to read: in the module of the declaration. That is the same thing
as long as modules do not share locations, and where two of them do, a plain
reference in one of them means a type of the other.
`refersByModule_iff` says that nothing else can go wrong, and with
`Assignment.Finished.key_eq_or_shares` that it takes two interfaces whose
names are apart by backticks only.
-/

namespace ComponentBindings

/-- **Interfaces list the named types that they own**, each once, and no
others. -/
def Graph.ListsOwnTypes (g : Graph) : Prop :=
  ∀ j i, g.interface j = .ok i → (i.types.map Prod.snd).Nodup ∧
    ∀ id, id ∈ i.types.map Prod.snd ↔
      ∃ t, g.typeDef id = .ok t ∧ t.name.isSome = true ∧ t.owner = some (.interface j)

/-- Whether an interface or a world owns a type. -/
def Graph.OwnsType (g : Graph) (owner : TypeOwner) (id : Int) : Prop :=
  ∃ t, g.typeDef id = .ok t ∧ t.owner = some owner

/-- An interface lists a type once, and no other interface lists it. -/
def Graph.ListedOnceBy (g : Graph) (j id : Int) : Prop :=
  (∃ i, g.interface j = .ok i ∧ (i.types.map Prod.snd).count id = 1) ∧
    ∀ j' i, g.interface j' = .ok i → id ∈ i.types.map Prod.snd → j' = j

/-- Where interfaces list what they own, an interface that lists a type is the
only one. -/
theorem Graph.ListsOwnTypes.listedOnceBy {g : Graph} (hlists : g.ListsOwnTypes) {j id : Int}
    {i : Interface} (hi : g.interface j = .ok i) (hid : id ∈ i.types.map Prod.snd) :
    g.OwnsType (.interface j) id ∧ g.ListedOnceBy j id := by
  obtain ⟨hnodup, howned⟩ := hlists j i hi
  obtain ⟨t, ht, -, howner⟩ := (howned id).mp hid
  refine ⟨⟨t, ht, howner⟩, ⟨i, hi, List.count_eq_one_of_mem hnodup hid⟩, ?_⟩
  intro j' i' hi' hid'
  obtain ⟨t', ht', -, howner'⟩ := ((hlists j' i' hi').2 id).mp hid'
  obtain rfl := Except.ok.inj (ht.symm.trans ht')
  simpa using howner'.symm.trans howner

/-- A type that is referred to has a name. -/
theorem Assignment.isSome_name_of_wording {a : Assignment} {here : Location} {id : Int}
    {t : TypeDef} {text : String} (ht : a.graph.typeDef id = .ok t)
    (h : a.wording here id = some text) : t.name.isSome = true := by
  obtain ⟨t', name, ht', hname, -⟩ := wording_eq_some_iff.mp h
  obtain rfl : t = t' := Except.ok.inj (ht.symm.trans ht')
  obtain ⟨raw, hraw, -⟩ := TypeDef.identifier_eq_ok_iff.mp hname
  rw [hraw]
  rfl

namespace Assignment

variable {a : Assignment} {orderly : a.graph.Orderly} {s : Session}

/-- **A type is declared at its owner**: once over all modules, in the module
where the owner is located, and all modules refer to it there. -/
def DeclaredAt (a : Assignment) (ms : List Module) (owner : TypeOwner) (id : Int) : Prop :=
  timesDeclared ms id = 1 ∧ ∃ m ∈ ms, ∃ d ∈ m.declarations, d.id = id ∧
    (∀ location, a.Locates owner location ↔ location = m.location) ∧
    ∀ m' ∈ ms, m'.Mentions id → a.wording m'.location id
      = some (if m.location = m'.location then d.name else m.location.memberPath d.name)

/-- **References to types of interfaces are those of their locations**: plain
at the location of the declaration, and in full elsewhere. -/
def RefersByLocation (a : Assignment) (ms : List Module) : Prop :=
  ∀ m ∈ ms, ∀ id j, m.Mentions id → a.graph.OwnsType (.interface j) id →
    ∀ m' ∈ ms, ∀ d ∈ m'.declarations, d.id = id →
      a.wording m.location id
        = some (if m'.location = m.location then d.name else m'.location.memberPath d.name)

/-- **References to types of interfaces are those of their modules**: plain in
the module of the declaration, and in full elsewhere. -/
def RefersByModule (a : Assignment) (ms : List Module) : Prop :=
  ∀ m ∈ ms, ∀ id j, m.Mentions id → a.graph.OwnsType (.interface j) id →
    ∀ m' ∈ ms, ∀ d ∈ m'.declarations, d.id = id →
      a.wording m.location id
        = some (if m'.key = m.key then d.name else m'.location.memberPath d.name)

/-- **A module mentions a type that another module declares at the same
location.** -/
def Entangled (a : Assignment) (ms : List Module) : Prop :=
  ∃ m ∈ ms, ∃ m' ∈ ms, m'.location = m.location ∧ m'.key ≠ m.key ∧
    ∃ id j, a.graph.OwnsType (.interface j) id ∧ m.Mentions id ∧ m'.DeclaresType id

namespace Finished

variable (h : a.Finished orderly s)
include h

/-- **A reference is that of the place of the owner**, where the type is
declared. -/
theorem reference_eq {owner : TypeOwner} {id : Int} (howns : a.graph.OwnsType owner id) {m : Module}
    (hm : m ∈ s.modules) (hplace : a.place owner = .ok m.location) {d : TypeDeclaration}
    (hd : d ∈ m.declarations) (hid : d.id = id) (here : Location) :
    a.wording here id
      = some (if m.location = here then d.name else m.location.memberPath d.name) := by
  obtain ⟨ds, hds⟩ := h.declares hm
  obtain ⟨t, ht, hname⟩ := hds.named orderly hd
  obtain ⟨t', ht', howner⟩ := howns
  rw [hid] at ht
  obtain rfl : t = t' := Except.ok.inj (ht.symm.trans ht')
  exact wording_eq_some_iff.mpr ⟨t, d.name, ht, hname, .inr ⟨owner, _, howner, hplace, rfl⟩⟩

/-- **A type that one module declares is declared at its owner**, when that
module is where the owner is located. -/
theorem declaredAt_of_only {owner : TypeOwner} {id : Int} (howns : a.graph.OwnsType owner id)
    (hheld : a.Held s.claims owner) {m : Module} (hm : m ∈ s.modules)
    (hplace : a.place owner = .ok m.location)
    (hcount : (a.contentAfter a.items m.key).types.count id = 1)
    (honly : ∀ key ∈ s.opened, id ∈ (a.contentAfter a.items key).types → key = m.key) :
    a.DeclaredAt s.modules owner id := by
  have hlists : id ∈ (a.contentAfter a.items m.key).types := List.count_pos_iff.mp (by omega)
  have hdeclares : m.DeclaresType id := (h.declaresType_iff hm).mpr hlists
  obtain ⟨d, hd, hid⟩ := hdeclares
  obtain ⟨location, hlocates⟩ := hheld.locates
  have hthere := (place_of_locates hlocates).symm.trans hplace
  obtain rfl : location = m.location := Except.ok.inj hthere
  have hopen : m.key ∈ s.opened := List.mem_map_of_mem hm
  refine ⟨?_, m, hm, d, hd, hid, fun _ => hlocates.iff_eq,
    fun m' _ _ => h.reference_eq howns hm hplace hd hid m'.location⟩
  rw [h.timesDeclared_of_only honly, if_pos hopen, hcount]

/-- **A type of an interface is declared by an interface that lists it**, in
the one direction that declares types. -/
theorem key_of_declares {j id : Int} (howns : a.graph.OwnsType (.interface j) id)
    (hlisted : a.graph.ListedOnceBy j id) {key : ModuleKey} (hkey : key ∈ s.opened)
    (hid : id ∈ (a.contentAfter a.items key).types) : key = .interface j (a.directionOf j) := by
  cases key with
  | interface j' direction =>
    obtain ⟨rfl, i, hi, hid⟩ := mem_types_interface.mp hid
    rw [hlisted.2 j' i hi hid]
  | world direction =>
    -- The world leaves the types of an interface to the interface.
    obtain ⟨m, hm, hkey⟩ := List.mem_map.mp hkey
    have hplaced := h.progress.kept.placed m hm
    rw [hkey] at hplaced
    obtain ⟨t, ht, howner⟩ := howns
    have hdeclares := (mem_types_world.mp hid).2
    simp only [declaresHere, ht, howner, Option.elim_some, hplaced.1,
      decide_eq_true_eq] at hdeclares
    cases hplace : a.place (.interface j) with
    | error e => simp [hplace, Except.toOption] at hdeclares
    | ok location =>
      obtain rfl : location = m.location := by simpa [hplace, Except.toOption] using hdeclares
      exact absurd hplaced.1 (interfacePlace_ne_worldPlace hplace)

/-- The module that declares the types of an interface is where the interface
is located. -/
theorem held_of_opened {j : Int} {m : Module} (hm : m ∈ s.modules)
    (hkey : m.key = .interface j (a.directionOf j)) :
    a.place (.interface j) = .ok m.location ∧ a.Held s.claims (.interface j) := by
  have hplaced := h.progress.kept.placed m hm
  rw [hkey] at hplaced
  exact ⟨hplaced.1, m.location, hplaced.1, hplaced.2.1⟩

/-- **A type of an interface is declared at the interface**, if the interface
and no other lists it once and has the module that declares its types. -/
theorem declaredAt_interface {j id : Int} (howns : a.graph.OwnsType (.interface j) id)
    (hlisted : a.graph.ListedOnceBy j id) (hopen : .interface j (a.directionOf j) ∈ s.opened) :
    a.DeclaredAt s.modules (.interface j) id := by
  obtain ⟨m, hm, hkey⟩ := List.mem_map.mp hopen
  obtain ⟨hplace, hheld⟩ := h.held_of_opened hm hkey
  refine h.declaredAt_of_only howns hheld hm hplace ?_ fun key hopen hid => ?_
  · obtain ⟨i, hi, hcount⟩ := hlisted.1
    rw [hkey]
    simpa [contentAfter, interfaceContent, hi] using hcount
  · rw [hkey]
    exact h.key_of_declares howns hlisted hopen hid

/-- An interface that has a module has the one that declares its types. -/
theorem opened_of_module {m : Module} (hm : m ∈ s.modules) {j : Int} {direction : Direction}
    (hkey : m.key = .interface j direction) : .interface j (a.directionOf j) ∈ s.opened := by
  have hplaced := h.progress.kept.placed m hm
  rw [hkey] at hplaced
  obtain ⟨-, -, key, hlisted⟩ := hplaced
  have hopen : .interface j direction ∈ s.opened := hkey ▸ List.mem_map_of_mem hm
  -- A module without a key is the import of an interface that is not listed.
  cases key with
  | none =>
    obtain ⟨hunlisted, rfl⟩ := hlisted
    simpa [directionOf, hunlisted.1, hunlisted.2] using hopen
  | some key =>
    refine h.progress.opened_of_listed fun hunlisted => ?_
    have hlists := lists_iff.mpr ⟨key, hlisted⟩
    cases direction with
    | imported => simp [hunlisted.1] at hlists
    | exported => simp [hunlisted.2] at hlists

/-- **What is mentioned of an interface is listed by it**, and its module is
open: a reference to a type is a note for its interface, and all notes have
been redeemed. -/
theorem listed_of_mentions (hlists : a.graph.ListsOwnTypes) {m : Module} (hm : m ∈ s.modules)
    {id j : Int} (hmentions : m.Mentions id) (howns : a.graph.OwnsType (.interface j) id) :
    a.graph.ListedOnceBy j id ∧ .interface j (a.directionOf j) ∈ s.opened := by
  obtain ⟨t, ht, howner⟩ := howns
  obtain ⟨⟨text, htext⟩, hasked⟩ := h.mentioned hm hmentions
  -- Whoever wrote the reference has asked for the owner.
  have hopen := h.opened (hasked t _ ht howner)
  obtain ⟨m', hm', hkey⟩ := List.mem_map.mp hopen
  obtain ⟨-, ⟨-, -, ⟨package, name, hcalled, -⟩⟩⟩ := h.held_of_opened hm' hkey
  obtain ⟨i, hi⟩ := interface_of_calledAs hcalled
  have hid : id ∈ i.types.map Prod.snd :=
    ((hlists j i hi).2 id).mpr ⟨t, ht, isSome_name_of_wording ht htext, howner⟩
  exact ⟨(hlists.listedOnceBy hi hid).2, hopen⟩

/-- **References lead to declarations.** What is mentioned of an interface has
the reference of the location where it is declared. -/
theorem refersByLocation (hlists : a.graph.ListsOwnTypes) : a.RefersByLocation s.modules := by
  intro m hm id j hmentions howns m' hm' d hd hid
  obtain ⟨hlisted, -⟩ := h.listed_of_mentions hlists hm hmentions howns
  have hkey := h.key_of_declares howns hlisted (List.mem_map_of_mem hm')
    ((h.declaresType_iff hm').mp ⟨d, hd, hid⟩)
  exact h.reference_eq howns hm' (h.held_of_opened hm' hkey).1 hd hid m.location

/-- **References are those of the modules unless modules are entangled.** -/
theorem refersByModule_iff (hlists : a.graph.ListsOwnTypes) :
    a.RefersByModule s.modules ↔ ¬ a.Entangled s.modules := by
  have hlocation := h.refersByLocation hlists
  constructor
  · rintro hmodule ⟨m, hm, m', hm', hsame, hkey, id, j, howns, hmentions, d, hd, hid⟩
    have htext := hlocation m hm id j hmentions howns m' hm' d hd hid
    rw [hmodule m hm id j hmentions howns m' hm' d hd hid, if_pos hsame, if_neg hkey] at htext
    exact m'.location.memberPath_ne d.name (Option.some.inj htext)
  · intro hentangled m hm id j hmentions howns m' hm' d hd hid
    rw [hlocation m hm id j hmentions howns m' hm' d hd hid]
    by_cases hkey : m'.key = m.key
    · obtain rfl := h.eq_of_key_eq hm' hm hkey
      simp
    · have hapart : m'.location ≠ m.location := fun hsame =>
        hentangled ⟨m, hm, m', hm', hsame, hkey, id, j, howns, hmentions, d, hd, hid⟩
      rw [if_neg hkey, if_neg hapart]

end Finished

/-- **The types that generated interfaces list are declared at them.** -/
def DeclaresListed (a : Assignment) (ms : List Module) : Prop :=
  ∀ m ∈ ms, ∀ j direction i id, m.key = .interface j direction → a.graph.interface j = .ok i →
    id ∈ i.types.map Prod.snd → a.DeclaredAt ms (.interface j) id

/-- **Modules are written with references to what is declared**: all texts of
a module are spelled with its references, and a type of an interface that is
referred to is declared at the interface. -/
def Linked (a : Assignment) (ms : List Module) : Prop :=
  ∀ m ∈ ms, m.SpelledBy (a.wording m.location) ∧
    ∀ id j, m.Mentions id → a.graph.OwnsType (.interface j) id →
      a.DeclaredAt ms (.interface j) id

/-- **Modules share a location only by backticks.** -/
def SharesOnlyByBackticks (a : Assignment) (ms : List Module) : Prop :=
  ∀ m ∈ ms, ∀ m' ∈ ms, m.location = m'.location → m.key = m'.key ∨
    ∃ j j', m.key = .interface j .exported ∧ m'.key = .interface j' .exported ∧
      a.SharesByBackticks j j'

end Assignment

/-- **Referential integrity.** When a run over a graph returns, and the
interfaces of the graph list the types they own and are called apart, every
type that a generated interface lists is declared once and where it should be,
and every reference to a type of an interface is the one of the location of
its only declaration. It is the one of the module of that declaration, too,
unless modules share a location and one of them mentions a type of the other;
and to share a location, two interfaces have to be exported under names that
are apart by backticks only. -/
theorem referential_integrity {document : Document} {g : Graph} {o : Options} {world : World}
    {ms : List Module} (hdocument : Graph.ofDocument document = .ok g) (hlists : g.ListsOwnTypes)
    (hworld : selectWorld g o = .ok world)
    (hapart : (Assignment.ofOptions g o world).CalledApart)
    (hrun : generateModules g o = .ok ms) :
    let a := Assignment.ofOptions g o world
    a.DeclaresListed ms ∧ a.Linked ms ∧ a.RefersByLocation ms ∧
      (a.RefersByModule ms ↔ ¬ a.Entangled ms) ∧ a.SharesOnlyByBackticks ms := by
  intro a
  have orderly : a.graph.Orderly := Graph.orderly_of_ofDocument hdocument
  obtain ⟨world', s, hworld', h, rfl⟩ := finished_of_generateModules orderly hrun
  obtain rfl : world = world' := Except.ok.inj (hworld.symm.trans hworld')
  refine ⟨?_, ?_, h.refersByLocation hlists, h.refersByModule_iff hlists, ?_⟩
  · intro m hm j direction i id hkey hi hid
    obtain ⟨howns, hlisted⟩ := hlists.listedOnceBy hi hid
    exact h.declaredAt_interface howns hlisted (h.opened_of_module hm hkey)
  · intro m hm
    refine ⟨h.spelledBy hm, fun id j hmentions howns => ?_⟩
    obtain ⟨hlisted, hopen⟩ := h.listed_of_mentions hlists hm hmentions howns
    exact h.declaredAt_interface howns hlisted hopen
  · intro m hm m' hm' hlocation
    exact h.key_eq_or_shares hapart hm hm' hlocation

/-! ## Names that are apart by backticks -/

/-- Two exported interfaces whose names are apart by backticks, and a type of
the second with a field whose type is the first's. -/
def arrowDocument : Document :=
  .object [
    (.text "packages", .list [.object [(.text "name", .string "a:b")]]),
    (.text "interfaces", .list [
      .object [(.text "name", .string "=->"), (.text "package", .int 0),
        (.text "types", .object [(.text "t", .int 0)])],
      .object [(.text "name", .string "\x60=->\x60"), (.text "package", .int 0),
        (.text "types", .object [(.text "u", .int 1)])]]),
    (.text "types", .list [
      .object [(.text "name", .string "t"),
        (.text "owner", .object [(.text "interface", .int 0)]),
        (.text "kind", .object [(.text "record", .object [(.text "fields", .list [])])])],
      .object [(.text "name", .string "u"),
        (.text "owner", .object [(.text "interface", .int 1)]),
        (.text "kind", .object [(.text "record", .object [(.text "fields", .list [
          .object [(.text "name", .string "f"), (.text "type", .int 0)]])])])]]),
    (.text "worlds", .list [.object [(.text "name", .string "w"), (.text "package", .int 0),
      (.text "exports", .object [
        (.text "x", .object [(.text "interface", .object [(.text "id", .int 0)])]),
        (.text "y", .object [(.text "interface", .object [(.text "id", .int 1)])])])]])]

/-- The world of that document. -/
def arrowWorld : World where
  id := 0
  name := "w"
  package := some 0
  imports := []
  exports := [(.text "x", .interface 0), (.text "y", .interface 1)]
  docs := none

/-- The second type of that document. -/
def arrowType : TypeDef :=
  ⟨1, some "u", .record [⟨"f", .defined 0, none⟩], some (.interface 1), none⟩

/-- The second interface of that document. -/
def arrowInterface : Interface :=
  ⟨1, some "\x60=->\x60", some 0, [(.text "u", 1)], [], none⟩

/-- The graph of that document. -/
def arrowGraph : Graph where
  packages := [⟨0, ⟨"a", "b", none⟩, [], [], none⟩]
  interfaces := [⟨0, some "=->", some 0, [(.text "t", 0)], [], none⟩, arrowInterface]
  types := [⟨0, some "t", .record [], some (.interface 0), none⟩, arrowType]
  worlds := [arrowWorld]

/-- What a run over that graph assigns to modules. -/
def arrowAssignment : Assignment := ⟨arrowGraph, arrowWorld, ⟨["componentmodel"]⟩⟩

/-- The location of both export modules. -/
def arrowPlace : Location where
  package := "componentmodel.exports.a.b"
  container := "\x60=>\x60"
  segments := ["componentmodel", "exports", "a", "b"]
  fileName := "=_>.scala"
  direction := .exported

/-- The module of the first interface. -/
def arrowFirst : Module where
  key := .interface 0 .exported
  location := arrowPlace
  docs := none
  types := [⟨0, "T", none, .record []⟩]

/-- The declaration of the second type. Its field is written as if the first
type were declared beside it. -/
def arrowDeclaration : TypeDeclaration := ⟨1, "U", none, .record [⟨"f", ⟨.named 0, "T"⟩⟩]⟩

/-- The module of the second interface. -/
def arrowSecond : Module where
  key := .interface 1 .exported
  location := arrowPlace
  docs := none
  types := [arrowDeclaration]

/-- The session when the first interface has been generated. -/
def arrowBetween : Session where
  claims := [⟨"componentmodel", "exports", "<exports>"⟩, ⟨"componentmodel.exports", "a", "a"⟩,
    ⟨"componentmodel.exports.a", "b", "b"⟩, ⟨"componentmodel.exports.a.b", "=_>", "=->"⟩,
    ⟨"componentmodel.exports.a.b:identity", "=_>", "a:b/=->"⟩,
    ⟨"componentmodel/exports/a/b/=_>.scala", "T", "t"⟩]
  modules := [arrowFirst]

/-- The same session with the claims of the second interface. -/
def arrowClaimed : Session := { arrowBetween with
  claims := arrowBetween.claims ++ [⟨"componentmodel.exports.a.b", "\x60=_>\x60", "\x60=->\x60"⟩,
    ⟨"componentmodel.exports.a.b:identity", "\x60=_>\x60", "a:b/\x60=->\x60"⟩] }

/-- The same session with the empty module of the second interface. -/
def arrowOpened : Session := { arrowClaimed with
  modules := [arrowFirst, { arrowSecond with types := [] }] }

/-- The place of the second type. -/
def arrowSite : Site := ⟨.exported, .text "a:b/\x60=->\x60", arrowPlace.path⟩

/-- The first type is rendered by its reference. -/
theorem render_arrow : (arrowAssignment.renderer arrowPlace).render (.defined 0) = (do
    let text ← (arrowAssignment.renderer arrowPlace).referenceTo 0
    return ⟨.named 0, text⟩) := by
  unfold Renderer.render
  show Emission.ofExcept (arrowGraph.shapeOf (.defined 0)) >>= _ = _
  rw [Graph.shapeOf_named (t := arrowGraph.types[0]) rfl rfl]
  rfl

/-- The second type is declared. -/
theorem emitType_arrow : ∃ s,
    (arrowAssignment.renderer arrowPlace).emitType arrowSite arrowType arrowOpened
      = .ok arrowDeclaration s ∧ s.modules = arrowOpened.modules ∧ s.pending = [] := by
  unfold Renderer.emitType
  simp only [arrowType, Renderer.emitRecord, Renderer.member, List.mapM_cons, List.mapM_nil,
    render_arrow]
  exact ⟨_, rfl, rfl, rfl⟩

/-- The second interface is generated. -/
theorem generateItem_arrow : ∃ s,
    arrowAssignment.generateItem (.exported, .text "y", .interface 1) arrowBetween = .ok () s ∧
      s.pending = [] ∧ s.modules = [arrowFirst, arrowSecond] := by
  obtain ⟨s, hemit, hmodules, hpending⟩ := emitType_arrow
  have htypes : arrowAssignment.generateTypes arrowInterface 1 (.interface 1 .exported) arrowPlace
      arrowSite arrowOpened = .ok () { s with modules := [arrowFirst, arrowSecond] } := by
    refine bind_eq_ok.mpr ⟨arrowPlace, arrowOpened, rfl, ?_⟩
    rw [if_pos rfl]
    refine bind_eq_ok.mpr ⟨(), _, bind_eq_ok.mpr ⟨arrowType, arrowOpened, rfl,
      bind_eq_ok.mpr ⟨_, s, hemit, rfl⟩⟩, ?_⟩
    show EStateM.Result.ok () { s with modules := s.modules.map _ } = _
    rw [hmodules]
    rfl
  refine ⟨{ s with modules := [arrowFirst, arrowSecond] }, ?_, hpending, rfl⟩
  show arrowAssignment.generateInterface 1 _ _ _ _ = _
  unfold Assignment.generateInterface
  refine bind_eq_ok.mpr ⟨arrowBetween, arrowBetween, rfl, ?_⟩
  rw [if_neg (by decide)]
  refine bind_eq_ok.mpr ⟨arrowInterface, arrowBetween, rfl, ?_⟩
  refine bind_eq_ok.mpr ⟨arrowPlace, arrowClaimed, rfl, ?_⟩
  refine bind_eq_ok.mpr ⟨.text "a:b/\x60=->\x60", arrowClaimed, rfl, ?_⟩
  refine bind_eq_ok.mpr ⟨(), arrowClaimed, rfl, ?_⟩
  refine bind_eq_ok.mpr ⟨(), arrowOpened, rfl, ?_⟩
  exact bind_eq_ok.mpr ⟨(), _, htypes, rfl⟩

/-- The run returns both modules. -/
theorem generateModules_arrow : generateModules arrowGraph {} = .ok [arrowFirst, arrowSecond] := by
  obtain ⟨s, hsecond, hpending, hmodules⟩ := generateItem_arrow
  rw [← hmodules]
  have hfirst : arrowAssignment.generateItem (.exported, .text "x", .interface 0)
      { claims := [⟨"componentmodel", "exports", "<exports>"⟩] } = .ok () arrowBetween := rfl
  exact generateModules_eq_ok rfl rfl
    (bind_eq_ok.mpr ⟨(), arrowBetween, hfirst, bind_eq_ok.mpr ⟨(), s, hsecond, rfl⟩⟩) hpending

/-- The interfaces of the graph list what they own. -/
theorem listsOwnTypes_arrow : arrowGraph.ListsOwnTypes := by
  intro j i hi
  obtain ⟨hk, hj⟩ := getElem?_of_entryAt (entryAt_of_elim_eq_ok hi)
  rw [← hj]
  generalize j.toNat = k at hk
  match k, hk with
  | 0, hk =>
    obtain rfl := Option.some.inj hk
    refine ⟨by decide, fun id => ⟨?_, ?_⟩⟩
    · intro hid
      obtain rfl : id = 0 := by simpa using hid
      exact ⟨_, rfl, rfl, rfl⟩
    · rintro ⟨t, ht, -, howner⟩
      obtain ⟨hk, hid⟩ := getElem?_of_entryAt (entryAt_of_elim_eq_ok ht)
      rw [← hid]
      generalize id.toNat = k at hk
      match k, hk with
      | 0, _ => simp
      | 1, hk =>
        obtain rfl := Option.some.inj hk
        simp [arrowType] at howner
  | 1, hk =>
    obtain rfl := Option.some.inj hk
    refine ⟨by decide, fun id => ⟨?_, ?_⟩⟩
    · intro hid
      obtain rfl : id = 1 := by simpa [arrowInterface] using hid
      exact ⟨_, rfl, rfl, rfl⟩
    · rintro ⟨t, ht, -, howner⟩
      obtain ⟨hk, hid⟩ := getElem?_of_entryAt (entryAt_of_elim_eq_ok ht)
      rw [← hid]
      generalize id.toNat = k at hk
      match k, hk with
      | 0, hk =>
        obtain rfl := Option.some.inj hk
        simp at howner
      | 1, _ => simp [arrowInterface]

/-- The interfaces of the graph are called apart. -/
theorem calledApart_arrow : arrowAssignment.CalledApart := by
  intro j j' called h h'
  obtain ⟨i, hi⟩ := Assignment.interface_of_calledAs h
  obtain ⟨i', hi'⟩ := Assignment.interface_of_calledAs h'
  obtain ⟨hk, hj⟩ := getElem?_of_entryAt (entryAt_of_elim_eq_ok hi)
  obtain ⟨hk', hj'⟩ := getElem?_of_entryAt (entryAt_of_elim_eq_ok hi')
  rw [← hj] at h ⊢
  rw [← hj'] at h' ⊢
  generalize j.toNat = k at hk h ⊢
  generalize j'.toNat = k' at hk' h' ⊢
  have hfirst : arrowAssignment.calledAs 0 = .ok (some ⟨"a", "b", none⟩, "=->") := rfl
  have hsecond : arrowAssignment.calledAs 1 = .ok (some ⟨"a", "b", none⟩, "\x60=->\x60") := rfl
  have hne : ("=->" : String) ≠ "\x60=->\x60" := by decide
  match k, k', hk, hk' with
  | 0, 0, _, _ => rfl
  | 1, 1, _, _ => rfl
  | 0, 1, _, _ =>
    have hsame := Except.ok.inj (hfirst.symm.trans (h.trans (h'.symm.trans hsecond)))
    exact absurd (Prod.mk.inj hsame).2 hne
  | 1, 0, _, _ =>
    have hsame := Except.ok.inj (hfirst.symm.trans (h'.trans (h.symm.trans hsecond)))
    exact absurd (Prod.mk.inj hsame).2 hne

/-- The modules of that graph are entangled, and otherwise as they should
be. -/
theorem referential_integrity_arrow :
    Graph.ofDocument arrowDocument = .ok arrowGraph ∧ arrowGraph.ListsOwnTypes ∧
      arrowAssignment.CalledApart ∧ generateModules arrowGraph {} = .ok [arrowFirst, arrowSecond] ∧
      arrowAssignment.Entangled [arrowFirst, arrowSecond] ∧
      arrowAssignment.DeclaresListed [arrowFirst, arrowSecond] ∧
      arrowAssignment.Linked [arrowFirst, arrowSecond] ∧
      arrowAssignment.RefersByLocation [arrowFirst, arrowSecond] := by
  have hdocument : Graph.ofDocument arrowDocument = .ok arrowGraph := rfl
  have hworld : selectWorld arrowGraph {} = .ok arrowWorld := rfl
  obtain ⟨hdeclares, hlinked, hrefers, -⟩ := referential_integrity hdocument listsOwnTypes_arrow
    hworld calledApart_arrow generateModules_arrow
  refine ⟨hdocument, listsOwnTypes_arrow, calledApart_arrow, generateModules_arrow, ?_, hdeclares,
    hlinked, hrefers⟩
  exact ⟨arrowSecond, .tail _ (.head _), arrowFirst, .head _, rfl, by decide, 0, 0, ⟨_, rfl, rfl⟩,
    ⟨_, .head _, .head _⟩, _, .head _, rfl⟩

/-- **References need not be those of the modules.** The field of the second
type is written plainly although its type is declared by another module. -/
theorem not_refersByModule : ∃ document g o world ms,
    Graph.ofDocument document = .ok g ∧ g.ListsOwnTypes ∧
      (∀ id t, g.typeDef id = .ok t → ∃ j, t.owner = some (.interface j)) ∧
      selectWorld g o = .ok world ∧ (Assignment.ofOptions g o world).CalledApart ∧
      generateModules g o = .ok ms ∧ ¬ (Assignment.ofOptions g o world).RefersByModule ms := by
  refine ⟨arrowDocument, arrowGraph, {}, arrowWorld, _, rfl, listsOwnTypes_arrow, ?_, rfl,
    calledApart_arrow, generateModules_arrow, fun hrefers => ?_⟩
  · intro id t ht
    obtain ⟨hk, -⟩ := getElem?_of_entryAt (entryAt_of_elim_eq_ok ht)
    generalize id.toNat = k at hk
    match k, hk with
    | 0, hk => exact ⟨0, by rw [← Option.some.inj hk]⟩
    | 1, hk => exact ⟨1, by rw [← Option.some.inj hk]; rfl⟩
  · have htext := hrefers arrowSecond (.tail _ (.head _)) 0 0 ⟨_, .head _, .head _⟩ ⟨_, rfl, rfl⟩
      arrowFirst (.head _) _ (.head _) rfl
    have hplain : arrowAssignment.wording arrowPlace 0 = some "T" := rfl
    rw [if_neg (by decide)] at htext
    exact arrowPlace.memberPath_ne "T" (Option.some.inj (htext.symm.trans hplain))

end ComponentBindings
