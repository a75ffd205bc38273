import ComponentBindings.Proofs.Files
import ComponentBindings.Proofs.Words
import ComponentBindings.Proofs.Written

/-!
# Which files stay below the output directory

The path of a module starts with the segments of the base package, which are
letters, digits and underscores, so it is always relative. What follows are
directories and a file that are named after a package, an interface or a
world, and these names are any texts: a slash in a name is a slash in the
path, and a name can be two dots.

`files_below` says which names are safe. All paths of a run lead below where
they start exactly when the module-case form of each name that a module is
called by does, without the backticks around it, and for the name of a file
with the suffix of the file (`Assignment.SafelyNamed`). Names over letters,
digits and hyphens are. Where all paths lead below, the program writes below
its output directory and nowhere else; and where a name is not safe, it can
write elsewhere (`not_below`).
-/

namespace ComponentBindings

/-! ## Safe names -/

/-- **A name that is safe for a directory.** -/
def IsDirectoryName (name : String) : Prop :=
  ∀ identifier, identifierOf .module name = .ok identifier → LeadsBelow (unescape identifier)

/-- **A name that is safe for a source file.** -/
def IsFileName (name : String) : Prop :=
  ∀ identifier, identifierOf .module name = .ok identifier →
    LeadsBelow (unescape identifier ++ ".scala")

/-- A text of letters, digits and underscores leads below, and so does the
source file that is named after it. -/
theorem leadsBelow_of_isIdentifierPart {text : String} (hne : text ≠ "")
    (h : ∀ c ∈ text.toList, isIdentifierPart c = true) :
    LeadsBelow text ∧ LeadsBelow (text ++ ".scala") := by
  have hslash : '/' ∉ text.toList := fun hmem => absurd (h _ hmem) (by decide)
  have hslash' : '/' ∉ (text ++ ".scala").toList := by
    rw [String.toList_append, List.mem_append, not_or]
    exact ⟨hslash, by decide⟩
  have hdot : '.' ∉ text.toList := fun hmem => absurd (h _ hmem) (by decide)
  constructor
  · rw [LeadsBelow, stepsOf_of_slash_notMem hslash, List.forall_mem_singleton]
    refine ⟨hne, ?_, ?_⟩
    · rintro rfl
      exact hdot (by decide)
    · rintro rfl
      exact hdot (by decide)
  · rw [LeadsBelow, stepsOf_of_slash_notMem hslash', List.forall_mem_singleton]
    have hlong : 6 ≤ (text ++ ".scala").length := by
      rw [String.length_append]
      exact Nat.le_add_left 6 _
    refine ⟨?_, ?_, ?_⟩ <;> (intro heq; rw [heq] at hlong; exact absurd hlong (by decide))

/-- **Names over letters, digits and hyphens are safe.** -/
theorem IsNameText.isSafe {name : String} (h : IsNameText name) :
    IsDirectoryName name ∧ IsFileName name := by
  have hboth : ∀ identifier, identifierOf .module name = .ok identifier →
      LeadsBelow (unescape identifier) ∧ LeadsBelow (unescape identifier ++ ".scala") := by
    intro identifier hidentifier
    obtain ⟨text, htext, rfl⟩ := except_map_eq_ok.mp hidentifier
    rw [(h.isPlainText htext).unescape_escape]
    exact leadsBelow_of_isIdentifierPart (h.ne_empty_of_convert htext) (h.of_convert htext)
  exact ⟨fun identifier hidentifier => (hboth identifier hidentifier).1,
    fun identifier hidentifier => (hboth identifier hidentifier).2⟩

/-! ## Paths of locations -/

/-- **A segment of a base package is a step.** -/
theorem isStep_of_passesAsSegment {segment : String} (h : Options.PassesAsSegment segment) :
    IsStep segment := by
  obtain ⟨first, rest, htext, hfirst⟩ := h.exists_eq_cons
  have hne : ∀ text : String, (text.toList.head?.any isSegmentStart) = false → segment ≠ text := by
    rintro text hstart rfl
    rw [htext, List.head?_cons, Option.any_some, hfirst] at hstart
    cases hstart
  exact ⟨hne "" rfl, hne "." rfl, hne ".." rfl⟩

namespace Layout

variable {l : Layout} {package : Option PackageName} {name : String} {direction : Direction}
  {location : Location}

/-- **A base whose segments are the first names of every path**: there is one
at least, and each is a plain text and a step. -/
structure SteppedBase (l : Layout) : Prop where
  /-- There is a segment. -/
  ne_nil : l.base ≠ []
  /-- The segments are plain texts. -/
  plain : l.PlainBase
  /-- The segments are steps. -/
  isStep : ∀ segment ∈ l.base, IsStep segment

/-- The layout of a run has such a base. -/
theorem steppedBase_ofOptions (o : Options) : SteppedBase ⟨o.baseSegments⟩ where
  ne_nil := by simp [Options.baseSegments, Text.pieces_ne_nil]
  plain _ hmem := Options.isPlainText_of_mem hmem
  isStep _ hmem := isStep_of_passesAsSegment (Options.passesAsSegment_of_mem hmem)

namespace SteppedBase

/-- The directories of a root are steps. -/
theorem isStep_of_mem_root (h : l.SteppedBase) {segment : String}
    (hmem : segment ∈ (l.root direction).map unescape) : IsStep segment := by
  rw [h.plain.map_root, List.mem_append] at hmem
  cases hmem with
  | inl hmem => exact h.isStep segment hmem
  | inr hmem =>
    split at hmem
    · rw [List.mem_singleton.mp hmem]
      decide
    · cases hmem

/-- The directories of a root are the first names of a path below it. -/
theorem stepsOf_path (h : l.SteppedBase) {parts : List String}
    (hparts : location.parts = (l.root direction).map unescape ++ parts) :
    stepsOf location.path = (l.root direction).map unescape ++ parts.flatMap stepsOf := by
  have hroot : ((l.root direction).map unescape).flatMap stepsOf
      = (l.root direction).map unescape :=
    (List.flatMap_congr fun segment hmem =>
      stepsOf_of_slash_notMem (h.plain.slash_notMem hmem)).trans (List.flatMap_singleton' _)
  show stepsOf ("/".intercalate location.parts) = _
  rw [stepsOf_intercalate (by simp [Location.parts]), hparts, List.flatMap_append, hroot]

/-- **A path below a root leads below** if what follows the root does. -/
theorem leadsBelow_iff (h : l.SteppedBase) {parts : List String}
    (hparts : location.parts = (l.root direction).map unescape ++ parts) :
    LeadsBelow location.path ↔ ∀ part ∈ parts, LeadsBelow part := by
  rw [LeadsBelow, h.stepsOf_path hparts, List.forall_mem_append]
  constructor
  · exact fun hall part hpart name hname => hall.2 name (List.mem_flatMap.mpr ⟨part, hpart, hname⟩)
  · refine fun hall => ⟨fun segment hmem => h.isStep_of_mem_root hmem, fun name hname => ?_⟩
    obtain ⟨part, hpart, hname⟩ := List.mem_flatMap.mp hname
    exact hall part hpart name hname

/-- **A path below a root starts in the base package**, at the working
directory. -/
theorem isRelative (h : l.SteppedBase) {parts : List String}
    (hparts : location.parts = (l.root direction).map unescape ++ parts) :
    (Path.ofString location.path).slashes = 0 ∧ l.base <+: stepsOf location.path := by
  have hprefix : l.base <+: stepsOf location.path := by
    rw [h.stepsOf_path hparts, h.plain.map_root, List.append_assoc]
    exact List.prefix_append _ _
  refine ⟨slashes_ofString_eq_zero fun hhead => ?_, hprefix⟩
  obtain ⟨first, rest, hbase⟩ := List.exists_cons_of_ne_nil h.ne_nil
  obtain ⟨more, hmore⟩ := hprefix
  rw [← hmore, hbase, List.cons_append, List.head?_cons] at hhead
  exact (h.isStep first (hbase ▸ List.mem_cons_self)).1 (Option.some.inj hhead)

end SteppedBase

/-- **A package and a name in it that are safe** for the directories and the
file of an interface. -/
def SafelyCalled (package : Option PackageName) (name : String) : Prop :=
  IsFileName name ∧ ∀ p, package = some p → IsDirectoryName p.ns ∧ IsDirectoryName p.name

/-- What follows the root in the path of an interface is named after the
package and the interface. -/
theorem parts_interfacePlace (h : l.interfacePlace package name direction = .ok location) :
    ∃ parts, location.parts = (l.root direction).map unescape ++ parts ∧
      ((∀ part ∈ parts, LeadsBelow part) ↔ SafelyCalled package name) := by
  obtain ⟨segments, module, hsegments, hmodule, hdirectories, hfile⟩ := parts_of_interfacePlace h
  have hfileName : IsFileName name ↔ LeadsBelow location.fileName := by
    rw [IsFileName, hmodule, hfile]
    simp
  cases package with
  | none =>
    obtain rfl := Except.ok.inj hsegments
    refine ⟨[location.fileName], by rw [Location.parts, hdirectories], ?_⟩
    rw [List.forall_mem_singleton, SafelyCalled, hfileName]
    simp
  | some p =>
    simp only [packagePlace, except_bind_eq_ok, except_pure_eq_ok] at hsegments
    obtain ⟨ns, hns, packageName, hpackageName, rfl⟩ := hsegments
    refine ⟨[unescape ns, unescape packageName, location.fileName], ?_, ?_⟩
    · rw [Location.parts, hdirectories, List.map_append, List.append_assoc]
      rfl
    · rw [SafelyCalled, hfileName]
      simp only [List.forall_mem_cons, IsDirectoryName, Option.some.injEq, forall_eq', hns,
        hpackageName, Except.ok.injEq]
      grind

/-- What follows the root in the path of a world is named after the world. -/
theorem parts_worldPlace (h : l.worldPlace name direction = .ok location) :
    ∃ parts, location.parts = (l.root direction).map unescape ++ parts ∧
      ((∀ part ∈ parts, LeadsBelow part) ↔ IsDirectoryName name) := by
  obtain ⟨module, hmodule, hdirectories, hfile⟩ := parts_of_worldPlace h
  have hpackage : LeadsBelow "package.scala" := by decide
  refine ⟨[unescape module, "package.scala"], ?_, ?_⟩
  · rw [Location.parts, hdirectories, hfile, List.append_assoc]
    rfl
  · rw [IsDirectoryName, hmodule]
    simp [hpackage]

end Layout

namespace Assignment

variable {a : Assignment} {claims : Claims} {key : ModuleKey} {location : Location}

/-- **A module whose path leads below**: the names that it is called by are
safe for directories and files. -/
def SafelyNamed (a : Assignment) : ModuleKey → Prop
  | .interface j _ => ∀ package name, a.calledAs j = .ok (package, name) →
      Layout.SafelyCalled package name
  | .world _ => IsDirectoryName a.world.name

/-- A module that is called by names over letters, digits and hyphens. -/
def NamedInLetters (a : Assignment) : ModuleKey → Prop
  | .interface j _ => ∀ package name, a.calledAs j = .ok (package, name) →
      IsNameText name ∧ ∀ p, package = some p → IsNameText p.ns ∧ IsNameText p.name
  | .world _ => IsNameText a.world.name

/-- Names over letters, digits and hyphens are safe. -/
theorem NamedInLetters.safelyNamed (h : a.NamedInLetters key) : a.SafelyNamed key := by
  cases key with
  | interface j direction =>
    intro package name hcalled
    obtain ⟨hname, hpackage⟩ := h package name hcalled
    exact ⟨hname.isSafe.2, fun p hp => ⟨(hpackage p hp).1.isSafe.1, (hpackage p hp).2.isSafe.1⟩⟩
  | world direction => exact IsNameText.isSafe h |>.1

/-- What follows a root in the path of a module is named after what the module
is for. -/
theorem Placed.parts (hplaced : a.Placed claims key location) :
    ∃ direction parts, location.parts = (a.layout.root direction).map unescape ++ parts ∧
      ((∀ part ∈ parts, LeadsBelow part) ↔ a.SafelyNamed key) := by
  cases key with
  | interface j direction =>
    obtain ⟨package, name, hcalled, hplace⟩ := calledAs_of_interfacePlace hplaced.1
    obtain ⟨parts, hparts, hiff⟩ := Layout.parts_interfacePlace hplace
    refine ⟨direction, parts, hparts, hiff.trans ?_⟩
    simp [SafelyNamed, hcalled]
  | world direction => exact ⟨direction, Layout.parts_worldPlace hplaced.1⟩

end Assignment

/-! ## The files of a run -/

/-- What holds of the paths of the files that are written holds of the paths of
the modules. -/
theorem forall_path_iff (P : String → Prop) {ms : List Module} {header : Bool} :
    (∀ file ∈ (ms.map (Module.file header)).foldl
      (fun files file => writeFile files file.1 file.2) [], P file.1) ↔
      ∀ m ∈ ms, P m.location.path := by
  have hpaths : ∀ path, path ∈ ((ms.map (Module.file header)).foldl
      (fun files file => writeFile files file.1 file.2) []).map Prod.fst ↔
        path ∈ (ms.map (Module.file header)).map Prod.fst := by
    intro path
    rw [mem_map_fst_foldl_writeFile, List.map_nil, or_iff_right List.not_mem_nil]
  simp only [List.mem_map] at hpaths
  constructor
  · intro h m hm
    obtain ⟨file, hfile, hpath⟩ := (hpaths m.location.path).mpr ⟨_, ⟨m, hm, rfl⟩, rfl⟩
    exact hpath ▸ h file hfile
  · intro h file hfile
    obtain ⟨_, ⟨m, hm, rfl⟩, hpath⟩ := (hpaths file.1).mp ⟨file, hfile, rfl⟩
    exact hpath ▸ h m hm

/-- **Which files stay below the output directory.** A run over a graph that
returns modules has files, one for each path. Every path is relative and
starts in the base package. All of them lead below where they start exactly
when the names that the modules are called by are safe, as names over letters,
digits and hyphens are. And when all paths lead below, the program changes
nothing on a file tree but what is below its output directory, and the
directories that it makes on the way there. -/
theorem files_below {document : Document} {g : Graph} {o : Options} {world : World}
    {ms : List Module} (hdocument : Graph.ofDocument document = .ok g)
    (hworld : selectWorld g o = .ok world) (hrun : generateModules g o = .ok ms) :
    let a := Assignment.ofOptions g o world
    ∃ files, generate g o = .ok files ∧
      (∀ file ∈ files, (Path.ofString file.1).slashes = 0 ∧ o.baseSegments <+: stepsOf file.1) ∧
      ((∀ file ∈ files, LeadsBelow file.1) ↔ ∀ m ∈ ms, a.SafelyNamed m.key) ∧
      (∀ m ∈ ms, a.NamedInLetters m.key → a.SafelyNamed m.key) ∧
      ((∀ file ∈ files, LeadsBelow file.1) → ∀ (s : Settings) (l : Libraries) (t : FileTree),
        t.GrownBelow (t.start s.outDir) s.outDir.parts ((s.plan files).run l t).tree) := by
  intro a
  have orderly : a.graph.Orderly := Graph.orderly_of_ofDocument hdocument
  have hbase : a.layout.SteppedBase := Layout.steppedBase_ofOptions o
  obtain ⟨world', s, hworld', h, rfl⟩ := finished_of_generateModules orderly hrun
  obtain rfl : world = world' := Except.ok.inj (hworld.symm.trans hworld')
  have hplaced := h.progress.kept.placed
  refine ⟨_, generate_of_generateModules hrun, ?_, ?_, fun m _ hletters => hletters.safelyNamed,
    fun hbelow settings l t => Plan.grownBelow_run settings l t hbelow⟩
  · refine (forall_path_iff fun path =>
      (Path.ofString path).slashes = 0 ∧ o.baseSegments <+: stepsOf path).mpr fun m hm => ?_
    obtain ⟨direction, parts, hparts, -⟩ := (hplaced m hm).parts
    exact hbase.isRelative hparts
  · refine (forall_path_iff LeadsBelow).trans (forall₂_congr fun m hm => ?_)
    obtain ⟨direction, parts, hparts, hiff⟩ := (hplaced m hm).parts
    exact (hbase.leadsBelow_iff hparts).trans hiff

/-! ## A file outside the output directory -/

/-- A world that imports an interface whose name climbs up four
directories. -/
def strayDocument : Document :=
  .object [
    (.text "packages", .list [.object [(.text "name", .string "a:b")]]),
    (.text "interfaces", .list [
      .object [(.text "name", .string "../../../../evil"), (.text "package", .int 0)]]),
    (.text "worlds", .list [.object [(.text "name", .string "w"), (.text "package", .int 0),
      (.text "imports", .object [
        (.text "evil", .object [(.text "interface", .object [(.text "id", .int 0)])])])]])]

/-- The world of that document. -/
def strayWorld : World where
  id := 0
  name := "w"
  package := some 0
  imports := [(.text "evil", .interface 0)]
  exports := []
  docs := none

/-- The graph of that document. -/
def strayGraph : Graph where
  packages := [⟨0, ⟨"a", "b", none⟩, [], [], none⟩]
  interfaces := [⟨0, some "../../../../evil", some 0, [], [], none⟩]
  types := []
  worlds := [strayWorld]

/-- What a run over that graph assigns to modules. -/
def strayAssignment : Assignment := ⟨strayGraph, strayWorld, ⟨["componentmodel"]⟩⟩

/-- The module of the interface. -/
def strayModule : Module where
  key := .interface 0 .imported
  location := ⟨"componentmodel.a.b", "../../../../evil", ["componentmodel", "a", "b"],
    "../../../../evil.scala", .imported⟩
  docs := none

/-- The session when the interface has been walked. -/
def straySession : Session where
  claims := [⟨"componentmodel", "exports", "<exports>"⟩, ⟨"componentmodel", "a", "a"⟩,
    ⟨"componentmodel.a", "b", "b"⟩, ⟨"componentmodel.a.b", "../../../../evil", "../../../../evil"⟩,
    ⟨"componentmodel.a.b:identity", "../../../../evil", "a:b/../../../../evil"⟩]
  modules := [strayModule]

/-- The run returns the module. -/
theorem generateModules_stray : generateModules strayGraph {} = .ok straySession.modules := by
  have hitems : strayAssignment.items.forM strayAssignment.generateItem
      { claims := [⟨"componentmodel", "exports", "<exports>"⟩] } = .ok () straySession := rfl
  exact generateModules_eq_ok rfl rfl hitems rfl

/-- The name of the interface is not safe, and its path does not lead below. -/
theorem files_below_stray :
    Graph.ofDocument strayDocument = .ok strayGraph ∧
      selectWorld strayGraph {} = .ok strayWorld ∧
      generateModules strayGraph {} = .ok straySession.modules ∧
      ¬ strayAssignment.SafelyNamed strayModule.key ∧
      ∃ files, generate strayGraph {} = .ok files ∧ ¬ ∀ file ∈ files, LeadsBelow file.1 := by
  have hdocument : Graph.ofDocument strayDocument = .ok strayGraph := rfl
  have hworld : selectWorld strayGraph {} = .ok strayWorld := rfl
  have hunsafe : ¬ strayAssignment.SafelyNamed strayModule.key := by
    intro hsafe
    have hfile := (hsafe (some ⟨"a", "b", none⟩) "../../../../evil" rfl).1
    exact absurd (hfile "../../../../evil" rfl) (by decide)
  obtain ⟨files, hfiles, -, hiff, -⟩ := files_below hdocument hworld generateModules_stray
  refine ⟨hdocument, hworld, generateModules_stray, hunsafe, files, hfiles, fun hbelow => ?_⟩
  exact hunsafe (hiff.mp hbelow strayModule List.mem_cons_self)

/-- **A file can be written outside the output directory.** The path of the
module has two dots among its names, and the file is written beside the
directory that it should be below. -/
theorem not_below : ∃ document g o files file,
    Graph.ofDocument document = .ok g ∧ generate g o = .ok files ∧ file ∈ files ∧
      ".." ∈ stepsOf file.1 ∧ ∃ (s : Settings) (t : FileTree) (place : Place),
        ¬ (t.start s.outDir).after s.outDir.parts <+: place ∧ t.get? place = none ∧
        ∀ l : Libraries, ((s.plan files).run l t).tree.get? place = some (.file file.2) := by
  have hfiles : generate strayGraph {} = .ok [strayModule.file true] := by
    rw [generate_of_generateModules generateModules_stray]
    rfl
  refine ⟨strayDocument, strayGraph, {}, _, strayModule.file true, rfl, hfiles, List.mem_cons_self,
    by decide +kernel, {}, FileTree.empty ["work"], ["work", "evil.scala"], by decide, rfl,
    fun l => ?_⟩
  rw [Plan.tree_run]
  decide +kernel

end ComponentBindings
