import ComponentBindings.Proofs.Identified
import ComponentBindings.Proofs.WorldTypes

/-!
# The name of a module and the identity in its markers

The module of an interface is called after the interface, and its markers
carry the identity of the interface. An interface with a name gives that name
to both. One without a name is called by a key of the world, and there the two
part ways: the module is called by the first key over imports and exports
(`Assignment.keyOf`), and the identity is the first key in the direction of
the module (`Assignment.identifyingKey`).

These are one and the same key for an import, and for an export of what is not
imported. Only an interface without a name that is imported under one key and
exported under another has an export module whose name disagrees with its
identity (`module_names_agree_iff`).
-/

namespace ComponentBindings

/-- **The part of an identity that stands for the interface**: its name if it
has one, behind the package if there is one, and otherwise all of it. -/
inductive Graph.IsInterfacePart (g : Graph) (j : Int) : Scalar → Scalar → Prop
  /-- An interface with a name is identified by it, in its package. -/
  | named {i : Interface} {name : String} {package : Option PackageName} :
    g.interface j = .ok i → i.givenName = some name → g.packageNameOf j = .ok package →
      g.IsInterfacePart j (.text (package.elim name (·.identity name))) (.text name)
  /-- An interface without a name is identified by a key. -/
  | keyed {i : Interface} {key : Scalar} :
    g.interface j = .ok i → i.givenName = none → g.IsInterfacePart j key key

/-- Without a name, an interface is identified by the key as it is. -/
theorem Graph.IsInterfacePart.eq_of_givenName {g : Graph} {j : Int} {i : Interface}
    {identity part : Scalar} (h : g.IsInterfacePart j identity part)
    (hi : g.interface j = .ok i) (hname : i.givenName = none) : part = identity := by
  cases h with
  | named hi' hname' _ =>
    obtain rfl := Except.ok.inj (hi.symm.trans hi')
    rw [hname] at hname'
    cases hname'
  | keyed _ _ => rfl

namespace Assignment

variable {a : Assignment} {j : Int} {direction : Direction} {key : Scalar} {i : Interface}
  {package : Option PackageName} {name : String} {m : Module}

/-! ## Keys -/

/-- A key in a direction is one that the world lists the interface under. -/
theorem mem_items_of_keyIn (h : a.keyIn direction j = some key) :
    (direction, key, .interface j) ∈ a.items := by
  obtain ⟨⟨d, key', item⟩, hfound, rfl⟩ := Option.map_eq_some_iff.mp h
  obtain ⟨rfl, rfl⟩ : d = direction ∧ item = .interface j := by simpa using List.find?_some hfound
  exact List.mem_of_find?_eq_some hfound

/-- **The first key of all** is the first among the imports, or else among the
exports. -/
theorem keyOf_eq (a : Assignment) (j : Int) :
    a.keyOf j = (a.keyIn .imported j <|> a.keyIn .exported j) := by
  have hnone : ∀ items : List (Scalar × WorldItem), items.find? (fun _ => false) = none :=
    fun items => List.find?_eq_none.mpr (by simp)
  unfold keyOf keyIn items
  simp [List.find?_append, List.find?_map, Function.comp_def, Option.map_or, hnone]

/-- An import, and an export of what is not imported, is identified by the first
key of all. -/
theorem keyIn_eq_keyOf (hlists : a.lists direction j = true)
    (h : direction = .imported ∨ a.lists .imported j = false) :
    a.keyIn direction j = a.keyOf j := by
  rw [keyOf_eq]
  cases himported : a.keyIn .imported j with
  | none =>
    have hnot := keyIn_eq_none_iff.mp himported
    cases direction with
    | imported => exact absurd (hnot.symm.trans hlists) Bool.false_ne_true
    | exported => rfl
  | some key =>
    rcases h with rfl | hnot
    · exact himported
    · rw [keyIn_eq_none_iff.mpr hnot] at himported
      cases himported

/-! ## What an interface is called -/

/-- **What an interface is called** is its name, or else the first key of
all. -/
theorem calledAs_eq_ok_iff : a.calledAs j = .ok (package, name) ↔
    ∃ i, a.graph.interface j = .ok i ∧ a.graph.packageNameOf j = .ok package ∧
      (i.givenName.map Scalar.text <|> a.keyOf j) = some (.text name) := by
  unfold calledAs
  simp only [except_bind_eq_ok]
  constructor
  · rintro ⟨i, hi, package', hpackage, h⟩
    split at h
    · next hcalled =>
      obtain ⟨rfl, rfl⟩ := Prod.mk.inj (Except.ok.inj h)
      rcases Option.getD_eq_iff.mp hcalled with hcalled | ⟨-, hnull⟩
      · exact ⟨i, hi, hpackage, hcalled⟩
      · cases hnull
    · cases h
    · cases h
  · rintro ⟨i, hi, hpackage, hcalled⟩
    exact ⟨i, hi, package, hpackage, by rw [hcalled]; rfl⟩

/-- An interface with a name is identified by it. -/
theorem identityAt_of_givenName (hi : a.graph.interface j = .ok i)
    (hpackage : a.graph.packageNameOf j = .ok package) (hname : i.givenName = some name) :
    a.identityAt (.interface j direction)
      = .ok (.text (package.elim name (·.identity name))) := by
  unfold identityAt Graph.identityOf
  simp only [hi, hpackage, hname, bind, Except.bind]
  cases package <;> rfl

/-- An interface without a name is identified by its key, if it is called
something. -/
theorem identityAt_of_key (hi : a.graph.interface j = .ok i)
    (hpackage : a.graph.packageNameOf j = .ok package) (hname : i.givenName = none)
    (hkey : a.keyOf j = some (.text name)) :
    ∃ used, a.identifyingKey direction j = some used ∧
      a.identityAt (.interface j direction) = .ok used := by
  have hused : ∃ used, a.identifyingKey direction j = some used ∧ used ≠ .null := by
    unfold identifyingKey
    cases hfilter : (a.keyIn direction j).filter (!·.isEmpty) with
    | none => exact ⟨_, hkey, by simp⟩
    | some used =>
      refine ⟨used, rfl, ?_⟩
      rintro rfl
      simpa [Scalar.isEmpty] using (Option.filter_eq_some_iff.mp hfilter).2
  obtain ⟨used, hused, hne⟩ := hused
  refine ⟨used, hused, ?_⟩
  unfold identityAt Graph.identityOf
  simp only [hi, hpackage, hname, bind, Except.bind]
  rw [hused, Option.filter_some, if_pos (by simpa using hne)]
  rfl

/-! ## The name of a module -/

/-- **The name of a module agrees with its identity**: its file is called by
module case after the part of the identity that stands for the interface; and
for an interface without a name that part is a key under which the world lists
it in the direction of the module. -/
def NamesAgree (a : Assignment) (m : Module) (j : Int) (direction : Direction) : Prop :=
  ∃ identity name module, a.identityAt (.interface j direction) = .ok identity ∧
    a.graph.IsInterfacePart j identity (.text name) ∧ identifierOf .module name = .ok module ∧
    m.location.fileName = unescape module ++ ".scala" ∧
    ∀ i, a.graph.interface j = .ok i → i.givenName = none →
      (direction, .text name, .interface j) ∈ a.items

/-- **Keys that agree**: the key that identifies an interface in a direction is
one that the world lists it under there, and it names the file that the first
key of all does. -/
def KeysAgree (a : Assignment) (j : Int) (direction : Direction) : Prop :=
  ∃ first used module module', a.keyOf j = some (.text first) ∧
    a.identifyingKey direction j = some (.text used) ∧
    (direction, .text used, .interface j) ∈ a.items ∧
    identifierOf .module first = .ok module ∧ identifierOf .module used = .ok module' ∧
    unescape module = unescape module'

/-- The file of a module of an interface is named after what the interface is
called. -/
theorem Placed.fileName {claims : Claims} {location : Location}
    (h : a.Placed claims (.interface j direction) location) :
    ∃ i package name module, a.graph.interface j = .ok i ∧
      a.graph.packageNameOf j = .ok package ∧
      (i.givenName.map Scalar.text <|> a.keyOf j) = some (.text name) ∧
      identifierOf .module name = .ok module ∧ location.fileName = unescape module ++ ".scala" := by
  obtain ⟨package, name, hcalled, hplace⟩ := calledAs_of_interfacePlace h.1
  obtain ⟨i, hi, hpackage, hname⟩ := calledAs_eq_ok_iff.mp hcalled
  obtain ⟨_, module, -, hmodule, -, hfile⟩ := Layout.parts_of_interfacePlace hplace
  exact ⟨i, package, name, module, hi, hpackage, hname, hmodule, hfile⟩

/-- **When the name of a module agrees with its identity**: the interface has a
name, or its keys agree. -/
theorem Placed.namesAgree_iff {claims : Claims}
    (h : a.Placed claims (.interface j direction) m.location)
    (hi : a.graph.interface j = .ok i) :
    a.NamesAgree m j direction ↔ i.givenName ≠ none ∨ a.KeysAgree j direction := by
  obtain ⟨i', package, name, module, hi', hpackage, hname, hmodule, hfile⟩ := h.fileName
  obtain rfl := Except.ok.inj (hi.symm.trans hi')
  cases hgiven : i.givenName with
  | some given =>
    rw [hgiven] at hname
    obtain rfl : given = name := by simpa using hname
    refine iff_of_true ⟨_, given, module, identityAt_of_givenName hi hpackage hgiven,
      .named hi hgiven hpackage, hmodule, hfile, ?_⟩ (.inl (by simp))
    intro i'' hi'' hnone
    obtain rfl := Except.ok.inj (hi.symm.trans hi'')
    rw [hgiven] at hnone
    cases hnone
  | none =>
    rw [hgiven, Option.map_none] at hname
    have hkey : a.keyOf j = some (.text name) := by simpa using hname
    obtain ⟨used, hused, hidentity⟩ := identityAt_of_key hi hpackage hgiven hkey
    rw [or_iff_right (by simp)]
    constructor
    · rintro ⟨identity, text, module', hidentity', hpart, hmodule', hfile', hlisted⟩
      obtain rfl := Except.ok.inj (hidentity.symm.trans hidentity')
      obtain rfl := hpart.eq_of_givenName hi hgiven
      exact ⟨name, text, module, module', hkey, hused, hlisted i hi hgiven, hmodule, hmodule',
        (String.append_left_inj _).mp (hfile.symm.trans hfile')⟩
    · rintro ⟨first, text, module₁, module', hfirst, htext, hlisted, hmodule₁, hmodule', heq⟩
      obtain rfl : name = first := by simpa using hkey.symm.trans hfirst
      obtain rfl := Except.ok.inj (hmodule.symm.trans hmodule₁)
      obtain rfl := Option.some.inj (hused.symm.trans htext)
      exact ⟨_, text, module', hidentity, .keyed hi hgiven, hmodule', heq ▸ hfile,
        fun _ _ _ => hlisted⟩

/-- **The name of an import agrees with its identity**, and so does that of an
export that is not imported. -/
theorem Placed.namesAgree {claims : Claims}
    (h : a.Placed claims (.interface j direction) m.location)
    (hlists : a.lists direction j = true)
    (hfirst : direction = .imported ∨ a.lists .imported j = false) :
    a.NamesAgree m j direction := by
  obtain ⟨i, package, name, module, hi, -, hname, hmodule, -⟩ := h.fileName
  refine (h.namesAgree_iff hi).mpr ?_
  cases hgiven : i.givenName with
  | some given => exact .inl (by simp)
  | none =>
    rw [hgiven, Option.map_none] at hname
    have hkey : a.keyOf j = some (.text name) := by simpa using hname
    have hkeyIn : a.keyIn direction j = some (.text name) :=
      (keyIn_eq_keyOf hlists hfirst).trans hkey
    have hused : a.identifyingKey direction j = some (.text name) := by
      unfold identifyingKey
      rw [hkeyIn, hkey, Option.filter_some]
      split <;> rfl
    exact .inr ⟨name, name, module, module, hkey, hused, mem_items_of_keyIn hkeyIn, hmodule,
      hmodule, rfl⟩

end Assignment

/-- **When the modules of a run are called as they are identified.** All markers
of a module carry one identity. Every interface that the world lists has a
module in the direction. Its name agrees with its identity exactly if the
interface has a name or its keys agree, which they do for an import and for an
export that is not imported. -/
theorem module_names_agree_iff {document : Document} {g : Graph} {o : Options} {world : World}
    {ms : List Module} (hdocument : Graph.ofDocument document = .ok g)
    (hworld : selectWorld g o = .ok world) (hrun : generateModules g o = .ok ms) :
    let a := Assignment.ofOptions g o world
    (∀ m ∈ ms, ∀ identity ∈ m.identities, a.identityAt m.key = .ok identity.scalar) ∧
    ∀ direction key j, (key, .interface j) ∈ world.items direction →
      ∃ i, g.interface j = .ok i ∧ ∃ m ∈ ms, m.key = .interface j direction ∧
        (a.NamesAgree m j direction ↔ i.givenName ≠ none ∨ a.KeysAgree j direction) ∧
        (direction = .imported ∨ a.lists .imported j = false → a.NamesAgree m j direction) := by
  intro a
  have orderly : a.graph.Orderly := Graph.orderly_of_ofDocument hdocument
  obtain ⟨world', claims, s, hworld', hstart, hall, rfl⟩ := generateModules_iff.mp hrun
  obtain rfl : world = world' := Except.ok.inj (hworld.symm.trans hworld')
  have hexports := Layout.holdsExports_of_start hstart
  have hfinished : a.Finished orderly s := Assignment.finished_of_generateAll hexports hall
  refine ⟨Assignment.identified_of_generateAll orderly hexports hall, ?_⟩
  intro direction key j hitem
  have hitem : (direction, key, .interface j) ∈ a.items := Assignment.mem_items.mpr hitem
  obtain ⟨m, hm, hkey⟩ := List.mem_map.mp (hfinished.progress.listed hitem)
  have hplaced := hfinished.progress.kept.placed m hm
  rw [hkey] at hplaced
  obtain ⟨i, -, -, -, hi, -⟩ := hplaced.fileName
  exact ⟨i, hi, m, hm, hkey, hplaced.namesAgree_iff hi,
    hplaced.namesAgree (Assignment.lists_iff.mpr ⟨key, hitem⟩)⟩

/-! ## An interface under two keys -/

/-- A world that imports an interface without a name under one key, and exports
it under another. -/
def twoKeysDocument : Document :=
  .object [
    (.text "interfaces", .list [.object [(.text "functions", .object [
      (.text "f", .object [(.text "name", .string "f")])])]]),
    (.text "worlds", .list [.object [(.text "name", .string "w"),
      (.text "imports", .object [
        (.text "a", .object [(.text "interface", .object [(.text "id", .int 0)])])]),
      (.text "exports", .object [
        (.text "b", .object [(.text "interface", .object [(.text "id", .int 0)])])])]])]

/-- The world of that document. -/
def twoKeysWorld : World where
  id := 0
  name := "w"
  package := none
  imports := [(.text "a", .interface 0)]
  exports := [(.text "b", .interface 0)]
  docs := none

/-- The graph of that document. -/
def twoKeysGraph : Graph where
  packages := []
  interfaces := [⟨0, none, none, [], [(.text "f", ⟨"f", .freestanding, [], [], none⟩)], none⟩]
  types := []
  worlds := [twoKeysWorld]

/-- What a run over that graph assigns to modules. -/
def twoKeysAssignment : Assignment := ⟨twoKeysGraph, twoKeysWorld, ⟨["componentmodel"]⟩⟩

/-- The function of the interface, as it is declared in either module. -/
def twoKeysFunction : Signature := ⟨"f", "f", [], ⟨.tuple [], "Unit"⟩, none⟩

/-- The import module. -/
def twoKeysImport : Module where
  key := .interface 0 .imported
  location := ⟨"componentmodel", "a", ["componentmodel"], "a.scala", .imported⟩
  docs := none
  functions := [⟨.imported, .text "a", twoKeysFunction⟩]

/-- The export module, which is called by the key of the import. -/
def twoKeysExport : Module where
  key := .interface 0 .exported
  location := ⟨"componentmodel.exports", "A", ["componentmodel", "exports"], "a.scala", .exported⟩
  docs := none
  functions := [⟨.exported, .text "b", twoKeysFunction⟩]

/-- The session when the interface has been imported. -/
def twoKeysImported : Session where
  claims := [⟨"componentmodel", "exports", "<exports>"⟩, ⟨"componentmodel", "a", "a"⟩,
    ⟨"componentmodel:identity", "a", "a"⟩, ⟨"componentmodel/a.scala", "f", "f"⟩]
  modules := [twoKeysImport]

/-- The session when it has been exported, too. -/
def twoKeysExported : Session where
  claims := twoKeysImported.claims ++ [⟨"componentmodel.exports", "a", "a"⟩,
    ⟨"componentmodel.exports:identity", "a", "a"⟩, ⟨"componentmodel/exports/a.scala", "f", "f"⟩]
  modules := [twoKeysImport, twoKeysExport]

/-- The run returns both modules. -/
theorem generateModules_twoKeys :
    generateModules twoKeysGraph {} = .ok [twoKeysImport, twoKeysExport] := by
  have himported : twoKeysAssignment.generateItem (.imported, .text "a", .interface 0)
      { claims := [⟨"componentmodel", "exports", "<exports>"⟩] } = .ok () twoKeysImported := rfl
  have hexported : twoKeysAssignment.generateItem (.exported, .text "b", .interface 0)
      twoKeysImported = .ok () twoKeysExported := rfl
  have hitems : twoKeysAssignment.items.forM twoKeysAssignment.generateItem
      { claims := [⟨"componentmodel", "exports", "<exports>"⟩] } = .ok () twoKeysExported :=
    bind_eq_ok.mpr ⟨(), _, himported, bind_eq_ok.mpr ⟨(), _, hexported, rfl⟩⟩
  exact generateModules_eq_ok (s := twoKeysExported) rfl rfl hitems rfl

/-- The import module is called by the key that its marker carries. The export
module is called by another. -/
theorem module_names_agree_iff_twoKeys :
    Graph.ofDocument twoKeysDocument = .ok twoKeysGraph ∧
      selectWorld twoKeysGraph {} = .ok twoKeysWorld ∧
      generateModules twoKeysGraph {} = .ok [twoKeysImport, twoKeysExport] ∧
      twoKeysAssignment.NamesAgree twoKeysImport 0 .imported ∧
      twoKeysAssignment.identityAt twoKeysImport.key = .ok (.text "a") ∧
      twoKeysAssignment.identityAt twoKeysExport.key = .ok (.text "b") := by
  have hdocument : Graph.ofDocument twoKeysDocument = .ok twoKeysGraph := rfl
  have hworld : selectWorld twoKeysGraph {} = .ok twoKeysWorld := rfl
  obtain ⟨hidentities, hitems⟩ := module_names_agree_iff hdocument hworld generateModules_twoKeys
  obtain ⟨i, -, m, hm, hkey, -, hagree⟩ := hitems .imported (.text "a") 0 List.mem_cons_self
  obtain rfl : m = twoKeysImport := by
    rcases List.mem_cons.mp hm with rfl | hm
    · rfl
    · obtain rfl := List.mem_singleton.mp hm
      cases hkey
  exact ⟨hdocument, hworld, generateModules_twoKeys, hagree (.inl rfl),
    hidentities twoKeysImport (by simp) (.text "a") List.mem_cons_self,
    hidentities twoKeysExport (by simp) (.text "b") List.mem_cons_self⟩

/-- **A module can be called by another key than its markers carry.** The export
of the interface is identified by the key `b` and its file is called `a`. -/
theorem not_namesAgree : ∃ document g o world ms,
    Graph.ofDocument document = .ok g ∧ selectWorld g o = .ok world ∧
      generateModules g o = .ok ms ∧
      ∃ direction key j, (key, .interface j) ∈ world.items direction ∧
        ∀ m ∈ ms, m.key = .interface j direction →
          ¬ (Assignment.ofOptions g o world).NamesAgree m j direction := by
  refine ⟨twoKeysDocument, twoKeysGraph, {}, twoKeysWorld, _, rfl, rfl, generateModules_twoKeys,
    .exported, .text "b", 0, List.mem_cons_self, ?_⟩
  rintro m hm hkey ⟨identity, name, module, hidentity, hpart, hmodule, hfile, -⟩
  obtain rfl : m = twoKeysExport := by
    rcases List.mem_cons.mp hm with rfl | hm
    · cases hkey
    · exact List.mem_singleton.mp hm
  obtain rfl : .text "b" = identity := Except.ok.inj hidentity
  obtain rfl : name = "b" := Scalar.text.inj (hpart.eq_of_givenName rfl rfl)
  obtain rfl : "b" = module := Except.ok.inj hmodule
  exact absurd hfile (by decide)

end ComponentBindings
