import ComponentBindings.Proofs.Paths

/-!
# What is written to files

The files of a run are the texts of its modules by path. A path that is there
already gets the new content, so a module is lost when a later one has its
path, and nothing is reported.

`files_of_modules` says when that does not happen. There is one file for each
module exactly when the paths are different, and these are different exactly
when no two modules belong to interfaces that are called the same in one
direction, and no module whose name is not plain has the path of another
(`Assignment.FilesApart`). Being called the same takes no odd names: an
interface that the world writes inline is called by its key, and that may be
the name of another interface of its package.
-/

namespace ComponentBindings

/-! ## Writing files -/

section writing

variable {files written : List (String × String)} {path content : String}

/-- A file with a new path is added at the end. -/
theorem writeFile_of_notMem (h : path ∉ files.map Prod.fst) :
    writeFile files path content = files ++ [(path, content)] := by
  have hnone : ¬ files.any (·.1 = path) = true := by
    simp only [List.any_eq_true, decide_eq_true_eq]
    rintro ⟨file, hfile, rfl⟩
    exact h (List.mem_map_of_mem hfile)
  rw [writeFile, if_neg hnone]

/-- A file with a known path adds no path. -/
theorem map_fst_writeFile_of_mem (h : path ∈ files.map Prod.fst) :
    (writeFile files path content).map Prod.fst = files.map Prod.fst := by
  have hsome : files.any (·.1 = path) = true := by simpa using h
  rw [writeFile, hsome, if_pos rfl, List.map_map]
  refine List.map_congr_left fun file _ => ?_
  by_cases hfile : file.1 = path
  · simp [hfile]
  · simp [hfile]

/-- **Writing a file keeps paths apart.** -/
theorem nodup_writeFile (h : (files.map Prod.fst).Nodup) :
    ((writeFile files path content).map Prod.fst).Nodup := by
  by_cases hmem : path ∈ files.map Prod.fst
  · rw [map_fst_writeFile_of_mem hmem]
    exact h
  · rw [writeFile_of_notMem hmem, List.map_append]
    show (files.map Prod.fst ++ [path]).Nodup
    rw [← List.concat_eq_append]
    exact h.concat hmem

/-- Writing files one after another keeps paths apart. -/
theorem nodup_foldl_writeFile (h : (files.map Prod.fst).Nodup) :
    ((written.foldl (fun files file => writeFile files file.1 file.2) files).map
      Prod.fst).Nodup := by
  induction written generalizing files with
  | nil => exact h
  | cons file rest ih => exact ih (nodup_writeFile h)

/-- The paths of the files are those that were there and those that were
written. -/
theorem mem_map_fst_foldl_writeFile :
    path ∈ (written.foldl (fun files file => writeFile files file.1 file.2) files).map Prod.fst ↔
      path ∈ files.map Prod.fst ∨ path ∈ written.map Prod.fst := by
  induction written generalizing files with
  | nil => simp
  | cons file rest ih =>
    have hfirst : path ∈ (writeFile files file.1 file.2).map Prod.fst ↔
        path ∈ files.map Prod.fst ∨ path = file.1 := by
      by_cases hmem : file.1 ∈ files.map Prod.fst
      · rw [map_fst_writeFile_of_mem hmem]
        exact ⟨.inl, fun h => h.elim id fun heq => heq ▸ hmem⟩
      · rw [writeFile_of_notMem hmem, List.map_append, List.mem_append, List.map_singleton,
          List.mem_singleton]
    rw [List.foldl_cons, ih, hfirst, List.map_cons, List.mem_cons, or_assoc]

/-- Files with different paths are all there. -/
theorem foldl_writeFile_of_nodup (h : ((files ++ written).map Prod.fst).Nodup) :
    written.foldl (fun files file => writeFile files file.1 file.2) files = files ++ written := by
  induction written generalizing files with
  | nil => exact (List.append_nil files).symm
  | cons file rest ih =>
    have hnew : file.1 ∉ files.map Prod.fst := by
      rw [List.map_append, List.nodup_append] at h
      exact fun hmem => h.2.2 file.1 hmem file.1 (by simp) rfl
    rw [List.foldl_cons, writeFile_of_notMem hnew, ih (by simpa using h), List.append_assoc]
    rfl

/-- **The files that are written are all there** exactly when their paths are
different. -/
theorem foldl_writeFile_eq_iff :
    written.foldl (fun files file => writeFile files file.1 file.2) [] = written ↔
      (written.map Prod.fst).Nodup := by
  constructor
  · intro h
    rw [← h]
    exact nodup_foldl_writeFile List.nodup_nil
  · exact fun h => foldl_writeFile_of_nodup h

end writing

/-- The file of a module: its path and its text. -/
def Module.file (header : Bool) (m : Module) : String × String :=
  (m.location.path, (m.sourceFile header).text)

/-- The files of a run are those of its modules, written one after another. -/
theorem generate_of_generateModules {g : Graph} {o : Options} {ms : List Module}
    (h : generateModules g o = .ok ms) :
    generate g o = .ok ((ms.map (Module.file o.header)).foldl
      (fun files file => writeFile files file.1 file.2) []) := by
  rw [generate, h, List.foldl_map]
  rfl

/-! ## The files of a run -/

namespace Assignment

variable {a : Assignment} {orderly : a.graph.Orderly} {s : Session}

/-- **Modules that do not share a file.** -/
structure FilesApart (a : Assignment) (ms : List Module) : Prop where
  /-- No two modules are those of interfaces that are called the same. -/
  called : ∀ m ∈ ms, ∀ m' ∈ ms, m.key ≠ m'.key → ¬ a.SameCall m.key m'.key
  /-- No module whose name is not plain has the path of another. -/
  named : ∀ m ∈ ms, ∀ m' ∈ ms, m.key ≠ m'.key → ¬ a.PlainlyNamed m.key →
    m.location.path ≠ m'.location.path

/-- **The paths of a finished run are different** exactly when its modules do
not share a file. -/
theorem Finished.nodup_paths_iff (h : a.Finished orderly s) (hbase : a.layout.PlainBase) :
    (s.modules.map (·.location.path)).Nodup ↔ a.FilesApart s.modules := by
  have hplaced := h.progress.kept.placed
  have hnodup : s.modules.Nodup := h.progress.kept.nodup.of_map
  rw [List.nodup_map_iff_inj_on hnodup]
  constructor
  · intro hinj
    refine ⟨fun m hm m' hm' hne hcall => ?_, fun m hm m' hm' hne _ hpath => ?_⟩
    · have hpath := (hplaced m hm).path_eq_of_sameCall (hplaced m' hm') hcall
      exact hne (congrArg Module.key (hinj m hm m' hm' hpath))
    · exact hne (congrArg Module.key (hinj m hm m' hm' hpath))
  · intro hapart m hm m' hm' hpath
    refine h.eq_of_key_eq hm hm' (by_contra fun hne => ?_)
    by_cases hplain : a.PlainlyNamed m.key
    · by_cases hplain' : a.PlainlyNamed m'.key
      · rcases Placed.key_eq_or_sameCall orderly hbase h.progress.exports (hplaced m hm)
          (hplaced m' hm') hplain hplain' hpath with hkey | hcall
        · exact hne hkey
        · exact hapart.called m hm m' hm' hne hcall
      · exact hapart.named m' hm' m hm (Ne.symm hne) hplain' hpath.symm
    · exact hapart.named m hm m' hm' hne hplain hpath

end Assignment

/-- **When no module is overwritten.** A run over a graph that returns modules
can write them, and every module has a file of its own with its text exactly
when the paths of the modules are different. They are exactly when no two of
the modules are those of interfaces that are called the same in one direction,
and none whose name is not plain has the path of another. -/
theorem files_of_modules {document : Document} {g : Graph} {o : Options} {world : World}
    {ms : List Module} (hdocument : Graph.ofDocument document = .ok g)
    (hworld : selectWorld g o = .ok world) (hrun : generateModules g o = .ok ms) :
    let a := Assignment.ofOptions g o world
    (generate g o = .ok (ms.map (Module.file o.header)) ↔ (ms.map (·.location.path)).Nodup) ∧
      ((ms.map (·.location.path)).Nodup ↔ a.FilesApart ms) := by
  intro a
  have orderly : a.graph.Orderly := Graph.orderly_of_ofDocument hdocument
  obtain ⟨world', s, hworld', h, rfl⟩ := finished_of_generateModules orderly hrun
  obtain rfl : world = world' := Except.ok.inj (hworld.symm.trans hworld')
  refine ⟨?_, h.nodup_paths_iff fun segment hmem => Options.isPlainText_of_mem hmem⟩
  have hpaths : (s.modules.map (Module.file o.header)).map Prod.fst
      = s.modules.map (·.location.path) := by
    rw [List.map_map]
    rfl
  rw [generate_of_generateModules hrun, Except.ok.injEq, foldl_writeFile_eq_iff, hpaths]

/-! ## An interface that is overwritten -/

/-- A world that imports the interface `api` of its package and writes an
interface inline under the key `api`. -/
def namesakeDocument : Document :=
  .object [
    (.text "packages", .list [.object [(.text "name", .string "a:b")]]),
    (.text "interfaces", .list [
      .object [(.text "name", .string "api"), (.text "package", .int 0),
        (.text "functions", .object [(.text "f", .object [(.text "name", .string "f")])])],
      .object [(.text "package", .int 0),
        (.text "functions", .object [(.text "g", .object [(.text "name", .string "g")])])]]),
    (.text "worlds", .list [.object [(.text "name", .string "w"), (.text "package", .int 0),
      (.text "imports", .object [
        (.text "interface-0", .object [(.text "interface", .object [(.text "id", .int 0)])]),
        (.text "api", .object [(.text "interface", .object [(.text "id", .int 1)])])])]])]

/-- The world of that document. -/
def namesakeWorld : World where
  id := 0
  name := "w"
  package := some 0
  imports := [(.text "interface-0", .interface 0), (.text "api", .interface 1)]
  exports := []
  docs := none

/-- The graph of that document. -/
def namesakeGraph : Graph where
  packages := [⟨0, ⟨"a", "b", none⟩, [], [], none⟩]
  interfaces := [
    ⟨0, some "api", some 0, [], [(.text "f", ⟨"f", .freestanding, [], [], none⟩)], none⟩,
    ⟨1, none, some 0, [], [(.text "g", ⟨"g", .freestanding, [], [], none⟩)], none⟩]
  types := []
  worlds := [namesakeWorld]

/-- What a run over that graph assigns to modules. -/
def namesakeAssignment : Assignment := ⟨namesakeGraph, namesakeWorld, ⟨["componentmodel"]⟩⟩

/-- The module of one of the interfaces, with its only function. -/
def namesakeModule (id : Int) (identity function : String) : Module where
  key := .interface id .imported
  location := ⟨"componentmodel.a.b", "api", ["componentmodel", "a", "b"], "api.scala", .imported⟩
  docs := none
  functions := [⟨.imported, .text identity, ⟨function, function, [], ⟨.tuple [], "Unit"⟩, none⟩⟩]

/-- The session when both interfaces have been walked. -/
def namesakeSession : Session where
  claims := [⟨"componentmodel", "exports", "<exports>"⟩, ⟨"componentmodel", "a", "a"⟩,
    ⟨"componentmodel.a", "b", "b"⟩, ⟨"componentmodel.a.b", "api", "api"⟩,
    ⟨"componentmodel.a.b:identity", "api", "a:b/api"⟩,
    ⟨"componentmodel/a/b/api.scala", "f", "f"⟩, ⟨"componentmodel/a/b/api.scala", "g", "g"⟩]
  modules := [namesakeModule 0 "a:b/api" "f", namesakeModule 1 "api" "g"]

/-- The run returns both modules. -/
theorem generateModules_namesake :
    generateModules namesakeGraph {} = .ok namesakeSession.modules := by
  have hitems : namesakeAssignment.items.forM namesakeAssignment.generateItem
      { claims := [⟨"componentmodel", "exports", "<exports>"⟩] } = .ok () namesakeSession := rfl
  exact generateModules_eq_ok rfl rfl hitems rfl

/-- The second module is written over the first. -/
theorem generate_namesake :
    generate namesakeGraph {} = .ok [(namesakeModule 1 "api" "g").file true] := by
  rw [generate_of_generateModules generateModules_namesake]
  rfl

/-- The modules have one path. -/
theorem not_nodup_paths_namesake : ¬ (namesakeSession.modules.map (·.location.path)).Nodup := by
  intro hnodup
  have hpath : (namesakeModule 0 "a:b/api" "f").location.path
      ≠ (namesakeModule 1 "api" "g").location.path := by
    simpa [namesakeSession] using hnodup
  exact hpath rfl

/-- The modules of that graph share a file, and not every module has its
own. -/
theorem files_of_modules_namesake :
    Graph.ofDocument namesakeDocument = .ok namesakeGraph ∧
      selectWorld namesakeGraph {} = .ok namesakeWorld ∧
      generateModules namesakeGraph {} = .ok namesakeSession.modules ∧
      generate namesakeGraph {} ≠ .ok (namesakeSession.modules.map (Module.file true)) ∧
      ¬ namesakeAssignment.FilesApart namesakeSession.modules := by
  have hdocument : Graph.ofDocument namesakeDocument = .ok namesakeGraph := rfl
  have hworld : selectWorld namesakeGraph {} = .ok namesakeWorld := rfl
  obtain ⟨hfiles, hapart⟩ := files_of_modules hdocument hworld generateModules_namesake
  exact ⟨hdocument, hworld, generateModules_namesake,
    fun hall => not_nodup_paths_namesake (hfiles.mp hall),
    fun h => not_nodup_paths_namesake (hapart.mpr h)⟩

/-- **A module can be overwritten.** Both interfaces have plain names, their
modules have one path, and the text of the first is in no file. -/
theorem not_mem_files : ∃ document g o world ms files,
    Graph.ofDocument document = .ok g ∧ selectWorld g o = .ok world ∧
      generateModules g o = .ok ms ∧
      (∀ m ∈ ms, (Assignment.ofOptions g o world).PlainlyNamed m.key) ∧
      ¬ (ms.map (·.location.path)).Nodup ∧
      generate g o = .ok files ∧ ∃ m ∈ ms, m.file o.header ∉ files := by
  refine ⟨namesakeDocument, namesakeGraph, {}, namesakeWorld, _, _, rfl, rfl,
    generateModules_namesake, ?_, not_nodup_paths_namesake, generate_namesake, ?_⟩
  · have hcall : Layout.PlainlyCalled (some ⟨"a", "b", none⟩) "api" := by
      refine ⟨by decide, fun p hp => ?_⟩
      obtain rfl := Option.some.inj hp
      exact ⟨by decide, by decide⟩
    have hcalled : ∀ j ∈ [0, 1], namesakeAssignment.calledAs j
        = .ok (some ⟨"a", "b", none⟩, "api") := by
      simp only [List.forall_mem_cons]
      exact ⟨rfl, rfl, by simp⟩
    have hkey : ∀ m ∈ namesakeSession.modules, ∃ j ∈ [0, 1], m.key = .interface j .imported := by
      simp [namesakeSession, namesakeModule]
    intro m hm
    obtain ⟨j, hj, hmkey⟩ := hkey m hm
    rw [hmkey]
    intro package name hthis
    obtain ⟨rfl, rfl⟩ := Prod.mk.inj (Except.ok.inj ((hcalled j hj).symm.trans hthis))
    exact hcall
  · refine ⟨namesakeModule 0 "a:b/api" "f", .head _, ?_⟩
    rw [List.mem_singleton]
    decide +kernel

end ComponentBindings
