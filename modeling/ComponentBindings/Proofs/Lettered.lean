import ComponentBindings.Proofs.Below
import ComponentBindings.Proofs.Called
import ComponentBindings.Proofs.Filled
import ComponentBindings.Proofs.Legible

/-!
# Source files that are named in letters

Where the names in a graph are over letters, digits and hyphens, and the base package has no line
feed, every path of a run is made of directories over letters, digits and underscores and of one
source file (`isSourcePath_of_generate`). There is no dot in the name of a directory, and there is
one in the name of a source file. So no file is where a directory has to be for another one, and
files with different paths can be written beside each other (`IsSourcePath.apart`).
-/

namespace ComponentBindings

/-! ## Names and paths -/

/-- **A name over letters, digits and underscores.** -/
structure IsLettered (name : String) : Prop where
  /-- The name is not empty. -/
  ne_empty : name ≠ ""
  /-- It is spelled with letters, digits and underscores. -/
  spelled : ∀ c ∈ name.toList, isIdentifierPart c = true

instance : DecidablePred IsLettered := fun name =>
  decidable_of_iff (name ≠ "" ∧ name.toList.all isIdentifierPart = true)
    ⟨fun ⟨hne, hall⟩ => ⟨hne, List.all_eq_true.mp hall⟩,
      fun ⟨hne, hspelled⟩ => ⟨hne, List.all_eq_true.mpr hspelled⟩⟩

/-- **The path of a source file** below directories, all of them lettered. -/
def IsSourcePath (path : String) : Prop :=
  ∃ directories name, (∀ directory ∈ directories, IsLettered directory) ∧ IsLettered name ∧
    path = "/".intercalate (directories ++ [name ++ ".scala"])

section names

variable {name : String} {c : Char}

/-- A character that is no letter, digit or underscore is not in a lettered name. -/
theorem IsLettered.notMem (h : IsLettered name) (hc : isIdentifierPart c = false) :
    c ∉ name.toList := by
  intro hmem
  rw [h.spelled c hmem] at hc
  cases hc

/-- The characters in the name of a source file. -/
theorem IsLettered.isIdentifierPart_or (h : IsLettered name) (hc : c ∈ (name ++ ".scala").toList) :
    isIdentifierPart c = true ∨ c = '.' := by
  have hsuffix : (".scala".toList.all fun c => isIdentifierPart c || c = '.') = true := by decide
  rw [String.toList_append, List.mem_append] at hc
  rcases hc with hmem | hmem
  · exact .inl (h.spelled c hmem)
  · simpa using List.all_eq_true.mp hsuffix c hmem

end names

section paths

variable {path path' : String} {directories : List String} {name : String}

/-- The path of a source file is read name by name. -/
theorem stepsOf_sourcePath (hdirectories : ∀ directory ∈ directories, IsLettered directory)
    (hname : IsLettered name) :
    stepsOf ("/".intercalate (directories ++ [name ++ ".scala"])) =
      directories ++ [name ++ ".scala"] := by
  have hsingle : ∀ part ∈ directories ++ [name ++ ".scala"], stepsOf part = [part] := by
    refine List.forall_mem_append.mpr ⟨fun directory hmem => ?_, List.forall_mem_singleton.mpr ?_⟩
    · exact stepsOf_of_slash_notMem ((hdirectories directory hmem).notMem (by decide))
    · refine stepsOf_of_slash_notMem fun hslash => ?_
      exact absurd (hname.isIdentifierPart_or hslash) (by decide)
  rw [stepsOf_intercalate (by simp), List.flatMap_congr hsingle]
  exact List.flatMap_singleton' _

/-- The path of a source file is made of its names. -/
theorem IsSourcePath.intercalate_stepsOf (h : IsSourcePath path) :
    "/".intercalate (stepsOf path) = path := by
  obtain ⟨directories, name, hdirectories, hname, rfl⟩ := h
  rw [stepsOf_sourcePath hdirectories hname]

/-- The characters in the names of such a path. -/
theorem IsSourcePath.isIdentifierPart_or (h : IsSourcePath path) {step : String}
    (hstep : step ∈ stepsOf path) {c : Char} (hc : c ∈ step.toList) :
    isIdentifierPart c = true ∨ c = '.' := by
  obtain ⟨directories, name, hdirectories, hname, rfl⟩ := h
  rw [stepsOf_sourcePath hdirectories hname, List.mem_append, List.mem_singleton] at hstep
  rcases hstep with hdirectory | rfl
  · exact .inl ((hdirectories step hdirectory).spelled c hc)
  · exact hname.isIdentifierPart_or hc

/-- The path of a source file leads below where it starts. -/
theorem IsSourcePath.leadsBelow (h : IsSourcePath path) : LeadsBelow path := by
  obtain ⟨directories, name, hdirectories, hname, rfl⟩ := h
  rw [LeadsBelow, stepsOf_sourcePath hdirectories hname, List.forall_mem_append,
    List.forall_mem_singleton]
  refine ⟨fun directory hmem => ?_, ?_⟩
  · have hdirectory := hdirectories directory hmem
    have hslash : '/' ∉ directory.toList := hdirectory.notMem (by decide)
    have hbelow := (leadsBelow_of_isIdentifierPart hdirectory.ne_empty hdirectory.spelled).1
    exact hbelow directory (stepsOf_of_slash_notMem hslash ▸ List.mem_cons_self)
  · have hslash : '/' ∉ (name ++ ".scala").toList := fun hslash =>
      absurd (hname.isIdentifierPart_or hslash) (by decide)
    have hbelow := (leadsBelow_of_isIdentifierPart hname.ne_empty hname.spelled).2
    exact hbelow _ (stepsOf_of_slash_notMem hslash ▸ List.mem_cons_self)

/-- A source file on the way to another one is that one. -/
theorem IsSourcePath.eq_of_prefix (h : IsSourcePath path) (h' : IsSourcePath path')
    (hinit : stepsOf path <+: stepsOf path') : path = path' := by
  have hpath := h.intercalate_stepsOf
  have hpath' := h'.intercalate_stepsOf
  obtain ⟨directories, name, hdirectories, hname, heq⟩ := h
  obtain ⟨directories', name', hdirectories', hname', heq'⟩ := h'
  rw [heq, heq', stepsOf_sourcePath hdirectories hname, stepsOf_sourcePath hdirectories' hname',
    List.prefix_concat_iff] at hinit
  rcases hinit with hsame | hinit
  · rw [heq, heq', hsame]
  · -- The name of the file would be that of a directory.
    have hdirectory := hdirectories' (name ++ ".scala") (hinit.subset (by simp))
    exact absurd (by simp) (hdirectory.notMem (c := '.') (by decide))

/-- **A source file is on the way to no other one.** -/
theorem IsSourcePath.apart (h : IsSourcePath path) (h' : IsSourcePath path') (hne : path ≠ path') :
    FileTree.Apart (stepsOf path) (stepsOf path') :=
  ⟨fun hinit => hne (h.eq_of_prefix h' hinit),
    fun hinit => hne (h'.eq_of_prefix h hinit).symm⟩

end paths

/-! ## Paths of modules -/

/-- A name over letters, digits and hyphens names a directory, or a source file. -/
theorem IsNameText.isLettered {name identifier : String} (h : IsNameText name)
    (hidentifier : identifierOf .module name = .ok identifier) :
    IsLettered (unescape identifier) := by
  obtain ⟨text, htext, rfl⟩ := except_map_eq_ok.mp hidentifier
  rw [(h.isPlainText htext).unescape_escape]
  exact ⟨h.ne_empty_of_convert htext, h.of_convert htext⟩

/-- **The segments of a base package without line feeds** are lettered. -/
theorem Options.isLettered_of_mem {o : Options} (h : '\n' ∉ o.basePackage.toList)
    {segment : String} (hmem : segment ∈ o.baseSegments) : IsLettered segment := by
  have hpass := passesAsSegment_of_mem hmem
  have hfeed : '\n' ∉ segment.toList := by
    obtain ⟨piece, hpiece, rfl⟩ := List.mem_map.mp hmem
    rw [String.toList_ofList]
    exact fun hfeed => h (of_mem_pieces hpiece hfeed).1
  exact ⟨(isStep_of_passesAsSegment hpass).1, (hpass.isSegment_iff.mpr hfeed).isSegmentPart⟩

namespace Assignment

variable {a : Assignment} {claims : Claims} {key : ModuleKey} {location : Location}

/-- **A module that is called by names over letters, digits and hyphens** is in a source file. -/
theorem Placed.isSourcePath (hplaced : a.Placed claims key location)
    (hbase : a.layout.PlainBase) (hlettered : ∀ segment ∈ a.layout.base, IsLettered segment)
    (hnamed : a.NamedInLetters key) : IsSourcePath location.path := by
  have hroot : ∀ direction, ∀ directory ∈ (a.layout.root direction).map unescape,
      IsLettered directory := by
    intro direction
    have hexports : IsLettered exportsSegment := by decide
    rw [hbase.map_root, List.forall_mem_append]
    refine ⟨hlettered, fun segment hmem => ?_⟩
    split at hmem
    · exact List.mem_singleton.mp hmem ▸ hexports
    · cases hmem
  cases key with
  | interface j direction =>
    obtain ⟨package, name, hcalled, hplace⟩ := calledAs_of_interfacePlace hplaced.1
    obtain ⟨hname, hpackage⟩ := hnamed package name hcalled
    obtain ⟨segments, module, hsegments, hmodule, hdirectories, hfile⟩ :=
      Layout.parts_of_interfacePlace hplace
    refine ⟨segments.map unescape, unescape module, ?_, hname.isLettered hmodule, ?_⟩
    · rcases Layout.packagePlace_eq_ok hsegments with ⟨-, rfl⟩ | ⟨p, ns, word, hp, hns, hword, rfl⟩
      · exact hroot direction
      · rw [List.map_append, List.forall_mem_append]
        refine ⟨hroot direction, ?_⟩
        simp only [List.map_cons, List.map_nil, List.forall_mem_cons]
        exact ⟨(hpackage p hp).1.isLettered hns, (hpackage p hp).2.isLettered hword, by simp⟩
    · rw [Location.path, hdirectories, hfile]
  | world direction =>
    obtain ⟨module, hmodule, hdirectories, hfile⟩ := Layout.parts_of_worldPlace hplaced.1
    refine ⟨(a.layout.root direction).map unescape ++ [unescape module], "package", ?_, by decide,
      ?_⟩
    · rw [List.forall_mem_append, List.forall_mem_singleton]
      exact ⟨hroot direction, IsNameText.isLettered hnamed hmodule⟩
    · rw [Location.path, hdirectories, hfile]
      rfl

end Assignment

/-! ## Names in a graph -/

namespace Graph

/-- The key that an interface without a name is called by, in an entry of a world. -/
def callingKey (g : Graph) : Scalar × WorldItem → Option String
  | (.text key, .interface j) =>
    match g.interface j with
    | .ok i => if i.givenName = none then some key else none
    | .error _ => none
  | _ => none

/-- **The names of a graph that are written into paths are over letters, digits and hyphens.** -/
structure NamedInLetters (g : Graph) : Prop where
  /-- The namespaces and names of packages. -/
  package : ∀ p ∈ g.packages, IsNameText p.name.ns ∧ IsNameText p.name.name
  /-- The names of interfaces. -/
  interface : ∀ i ∈ g.interfaces, ∀ name ∈ i.givenName, IsNameText name
  /-- The names of worlds. -/
  world : ∀ w ∈ g.worlds, IsNameText w.name
  /-- The keys of interfaces without a name. -/
  key : ∀ w ∈ g.worlds, ∀ entry ∈ w.imports ++ w.exports, ∀ key ∈ g.callingKey entry,
    IsNameText key

instance (g : Graph) : Decidable g.NamedInLetters :=
  decidable_of_iff
    ((∀ p ∈ g.packages, IsNameText p.name.ns ∧ IsNameText p.name.name) ∧
      (∀ i ∈ g.interfaces, ∀ name ∈ i.givenName, IsNameText name) ∧
      (∀ w ∈ g.worlds, IsNameText w.name) ∧
      ∀ w ∈ g.worlds, ∀ entry ∈ w.imports ++ w.exports, ∀ key ∈ g.callingKey entry, IsNameText key)
    ⟨fun ⟨hpackage, hinterface, hworld, hkey⟩ => ⟨hpackage, hinterface, hworld, hkey⟩,
      fun ⟨hpackage, hinterface, hworld, hkey⟩ => ⟨hpackage, hinterface, hworld, hkey⟩⟩

end Graph

/-- **All modules are called by names over letters, digits and hyphens** if the names of the graph
are. -/
theorem Graph.NamedInLetters.assignment {a : Assignment} (h : a.graph.NamedInLetters)
    (hworld : a.world ∈ a.graph.worlds) (key : ModuleKey) : a.NamedInLetters key := by
  cases key with
  | world direction => exact h.world _ hworld
  | interface j direction =>
    intro package name hcalled
    obtain ⟨i, hi, hpackage, hname⟩ := Assignment.calledAs_eq_ok_iff.mp hcalled
    refine ⟨?_, fun p hp => ?_⟩
    · cases hgiven : i.givenName with
      | some given =>
        rw [hgiven] at hname
        obtain rfl : given = name := by simpa using hname
        exact h.interface i (Graph.mem_of_interface hi) given hgiven
      | none =>
        rw [hgiven] at hname
        have hkey : a.keyOf j = some (.text name) := by simpa using hname
        have hlisted : ∃ direction, (direction, .text name, .interface j) ∈ a.items := by
          rw [Assignment.keyOf_eq, Option.orElse_eq_some] at hkey
          rcases hkey with hkey | ⟨-, hkey⟩ <;> exact ⟨_, Assignment.mem_items_of_keyIn hkey⟩
        obtain ⟨_, hlisted⟩ := hlisted
        refine h.key _ hworld _ (Assignment.mem_imports_append_exports hlisted) name ?_
        simp [Graph.callingKey, hi, hgiven]
    · obtain ⟨entry, hentry, rfl⟩ := Graph.exists_package_of_packageNameOf (hp ▸ hpackage)
      exact h.package entry hentry

/-! ## The files of a run -/

/-- **All files of a run are source files**, and none is on the way to another one, if the names of
the graph are over letters, digits and hyphens and the base package has no line feed. -/
theorem isSourcePath_of_generate {document : Document} {g : Graph} {o : Options}
    {files : List (String × String)} (hdocument : Graph.ofDocument document = .ok g)
    (hnamed : g.NamedInLetters) (hfeed : '\n' ∉ o.basePackage.toList)
    (hfiles : generate g o = .ok files) :
    (∀ file ∈ files, IsSourcePath file.1) ∧
      (files.map fun file => stepsOf file.1).Pairwise FileTree.Apart := by
  obtain ⟨ms, hrun, -⟩ := except_bind_eq_ok.mp hfiles
  obtain rfl := Except.ok.inj ((generate_of_generateModules hrun).symm.trans hfiles)
  obtain ⟨world, s, hworld, h, rfl⟩ :=
    finished_of_generateModules (Graph.orderly_of_ofDocument hdocument) hrun
  have hsource : ∀ file ∈ (s.modules.map (Module.file o.header)).foldl
      (fun files file => writeFile files file.1 file.2) [], IsSourcePath file.1 := by
    refine (forall_path_iff IsSourcePath).mpr fun m hm => ?_
    exact (h.progress.kept.placed m hm).isSourcePath (fun _ => Options.isPlainText_of_mem)
      (fun _ => Options.isLettered_of_mem hfeed)
      (Graph.NamedInLetters.assignment hnamed (mem_of_selectWorld hworld) m.key)
  refine ⟨hsource, ?_⟩
  have hnodup : (((s.modules.map (Module.file o.header)).foldl
      (fun files file => writeFile files file.1 file.2) []).map Prod.fst).Nodup :=
    nodup_foldl_writeFile List.nodup_nil
  rw [List.Nodup, List.pairwise_map] at hnodup
  rw [List.pairwise_map]
  exact hnodup.imp_of_mem fun hfile hfile' hne => (hsource _ hfile).apart (hsource _ hfile') hne

end ComponentBindings
