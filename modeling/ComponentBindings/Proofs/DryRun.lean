import ComponentBindings.Proofs.DrySwitch
import ComponentBindings.Proofs.Lettered

/-!
# A dry run foretells the run

Of two runs with the same arguments on the same file tree, where one has the switch for a dry run,
both are refused for the same reason, and neither changes anything; or the dry run prints the paths
of the files that the other one writes, in the same order (`dryRun_foretells`). Everything that can
be refused is refused before the first file is written, and files that can be written at all can be
written beside each other. This holds however documents are read, and for all libraries that read
the switch as what it is and print a line as it is (`Libraries.TakesDryRun`, `Libraries.Reliable`).

One thing is left that a dry run does not look at: the texts of the files. A text with half a
surrogate pair cannot be encoded, and a run that comes to such a text ends there. It fails and
leaves files behind where the dry run succeeds (`not_foretold`).
-/

namespace ComponentBindings

/-! ## Exit statuses -/

/-- Arguments that are refused are no success. -/
theorem UsageError.exitCode_ne_zero (e : UsageError) : e.exitCode ≠ 0 := by
  cases e <;> simp [UsageError.exitCode]

/-- A fault is no success. -/
theorem Fault.exitCode_ne_zero (f : Fault) : f.exitCode ≠ 0 := by
  unfold Fault.exitCode
  cases f.diagnostic.kind <;> decide

/-- A command that is refused is no success. -/
theorem Refusal.exitCode_ne_zero (refusal : Refusal) : refusal.exitCode ≠ 0 := by
  cases refusal with
  | basePackage name => exact one_ne_zero
  | missingDocument document => exact one_ne_zero
  | fault f => exact f.exitCode_ne_zero

/-! ## The paths that are printed -/

section paths

variable {dir p : Path} {path : String} {c : Char}

/-- A path that leads below a directory. -/
theorem Path.join_ofString (dir : Path) (h : LeadsBelow path) :
    dir.join (.ofString path) = dir.below (stepsOf path) := by
  obtain ⟨hslashes, hparts⟩ := parts_ofString_of_leadsBelow h
  rw [join, if_pos hslashes, hparts]
  rfl

/-- The characters of joined names. -/
theorem mem_intercalate_slash {names : List String} {name : String} (hname : name ∈ names)
    (hc : c ∈ name.toList) : c ∈ ("/".intercalate names).toList := by
  induction names with
  | nil => cases hname
  | cons first rest ih =>
    cases rest with
    | nil => rwa [String.intercalate_singleton, ← List.mem_singleton.mp hname]
    | cons next rest =>
      rw [String.intercalate_cons_cons, String.toList_append, String.toList_append]
      rcases List.mem_cons.mp hname with rfl | hname
      · exact List.mem_append_left _ (List.mem_append_left _ hc)
      · exact List.mem_append_right _ (ih hname)

/-- A path has the characters of its names. -/
theorem Path.mem_text {name : String} (hname : name ∈ p.parts) (hc : c ∈ name.toList) :
    c ∈ p.text.toList := by
  have hparts : ¬ (decide (p.slashes = 0) && p.parts.isEmpty) = true := by
    simp [List.ne_nil_of_mem hname]
  rw [text, if_neg hparts, String.toList_append]
  exact List.mem_append_right _ (mem_intercalate_slash hname hc)

/-- The characters of a path are those of its names, slashes and a dot. -/
theorem Path.of_mem_text (h : c ∈ p.text.toList) :
    c = '.' ∨ c = '/' ∨ ∃ name ∈ p.parts, c ∈ name.toList := by
  unfold text at h
  split at h
  · exact .inl (by simpa using h)
  · rw [String.toList_append, String.toList_ofList, String.toList_intercalate, List.mem_append] at h
    rcases h with h | h
    · exact .inr (.inl (List.eq_of_mem_replicate h))
    · refine .inr ((of_mem_intercalate h).imp ?_ ?_)
      · exact fun hslash => by simpa using hslash
      · rintro ⟨cs, hcs, hc⟩
        obtain ⟨name, hname, rfl⟩ := List.mem_map.mp hcs
        exact ⟨name, hname, hc⟩

/-- Joined names can be encoded if each of them can. -/
theorem isEncodable_intercalate {names : List String}
    (h : ∀ name ∈ names, Text.isEncodable name = true) :
    Text.isEncodable ("/".intercalate names) = true := by
  induction names with
  | nil => rfl
  | cons name names ih =>
    obtain ⟨hname, hnames⟩ := List.forall_mem_cons.mp h
    cases names with
    | nil => rwa [String.intercalate_singleton]
    | cons next rest =>
      rw [String.intercalate_cons_cons, Text.isEncodable, Path.codePoints_append_slash,
        List.all_append, List.all_cons]
      exact Bool.and_eq_true_iff.mpr ⟨hname, ih hnames⟩

/-- A path that can be used can be printed. -/
theorem Path.isEncodable_text (h : p.isUsable = true) : Text.isEncodable p.text = true := by
  simp only [isUsable, Bool.and_eq_true, List.all_eq_true] at h
  unfold text
  split
  · rfl
  · rw [Text.isEncodable, codePoints_slashes_append, List.all_append, Bool.and_eq_true_iff]
    refine ⟨List.all_eq_true.mpr fun q hq => ?_, isEncodable_intercalate h.1.2⟩
    rw [List.eq_of_mem_replicate hq]
    rfl

/-- **A character that is not in the text of a directory** is not in the paths of source files
there, unless it is one that these are written with. -/
theorem notMem_text_join (hpath : IsSourcePath path) (hdir : c ∉ dir.text.toList)
    (hpart : isIdentifierPart c = false) (hdot : c ≠ '.') (hslash : c ≠ '/') :
    c ∉ (dir.join (.ofString path)).text.toList := by
  rw [dir.join_ofString hpath.leadsBelow]
  intro hmem
  rcases Path.of_mem_text hmem with heq | heq | ⟨name, hname, hc⟩
  · exact hdot heq
  · exact hslash heq
  · rcases List.mem_append.mp hname with hname | hname
    · exact hdir (Path.mem_text hname hc)
    · rcases hpath.isIdentifierPart_or hname hc with hc | hc
      · rw [hc] at hpart
        cases hpart
      · exact hdot hc

end paths

/-! ## What is generated -/

/-- The path that a generated file is written to. -/
def Settings.pathOf (s : Settings) (path : String) : Path := s.outDir.join (.ofString path)

/-- Files with the names that lead to them. -/
def byNames (files : List (String × String)) : List (List String × String) :=
  files.map fun file => (stepsOf file.1, file.2)

/-- **The files that are generated** from the text of a document, or the reason why there are
none. -/
def Settings.filesFrom (s : Settings) (l : Libraries) (document : Path) (text : Option String) :
    Except Refusal (List (String × String)) := do
  let options ← s.options
  let g ← loadDocument l document text
  (generate g options).mapError .fault

variable {l : Libraries} {environment : Option String} {front arguments : List String}
  {document : Path} {s : Settings} {t : FileTree} {files : List (String × String)}

/-- Files that are generated are those of a graph that has been read. -/
theorem Settings.filesFrom_eq_ok {text : Option String}
    (h : s.filesFrom l document text = .ok files) :
    ∃ o g described, s.options = .ok o ∧ loadDocument l document text = .ok g ∧
      Graph.ofDocument described = .ok g ∧ generate g o = .ok files := by
  obtain ⟨o, ho, hloaded⟩ := except_bind_eq_ok.mp h
  obtain ⟨g, hg, hfiles⟩ := except_bind_eq_ok.mp hloaded
  cases text with
  | none => cases hg
  | some text =>
    obtain ⟨described, -, hdescribed⟩ := except_bind_eq_ok.mp (mapError_eq_ok hg)
    exact ⟨o, g, described, ho, hg, hdescribed, mapError_eq_ok hfiles⟩

/-- What is generated from the text of a document that can be read. -/
theorem Settings.filesFrom_some {o : Options} {text : String} (hoptions : s.options = .ok o) :
    s.filesFrom l document (some text) =
      (Graph.load l.read text >>= (generate · o)).mapError .fault := by
  rw [filesFrom, hoptions]
  show ((Graph.load l.read text).mapError Refusal.fault >>= fun g =>
    (generate g o).mapError Refusal.fault) = _
  cases Graph.load l.read text <;> rfl

/-- What is planned is planned for the files that are generated. -/
theorem Command.plan_generate (s : Settings) (l : Libraries) (document : Path)
    (text : Option String) :
    (Command.generate document s).plan l text = s.plan <$> s.filesFrom l document text := by
  unfold Command.plan Settings.filesFrom
  simp only [map_bind]
  rfl

/-- A run of the command plans for the files that are generated, if there are any. -/
theorem Command.run_generate (s : Settings) (l : Libraries) (document : Path) (t : FileTree) :
    (Command.generate document s).run l t =
      match s.filesFrom l document (t.read document) with
      | .ok files => (s.plan files).run l t
      | .error refusal => { exitCode := refusal.exitCode, tree := t } := by
  have hplan := plan_generate s l document (t.read (Command.generate document s).document)
  rw [Command.run, hplan, Command.document]
  cases s.filesFrom l document (t.read document) <;> rfl

/-! ## Two runs -/

/-- **A run into an empty directory that nothing disturbs.** -/
structure Undisturbed (l : Libraries) (document : Path) (s : Settings) (t : FileTree) : Prop where
  /-- The run is no dry run. -/
  not_dry : s.dryRun = false
  /-- There is no line feed in the base package. -/
  base : ∀ o, s.options = .ok o → '\n' ∉ o.basePackage.toList
  /-- The names in the document are over letters, digits and hyphens. -/
  named : ∀ g, loadDocument l document (t.read document) = .ok g → g.NamedInLetters
  /-- The working directory is there. -/
  working : t.get? t.working = some .directory
  /-- The output directory is empty, or not there. -/
  vacant : t.IsVacant (t.placeOf s.outDir)
  /-- The file system takes each of the files, if it is the only one. -/
  system : ∀ files, s.filesFrom l document (t.read document) = .ok files →
    ∀ file ∈ files, (t.write (s.pathOf file.1) "").1 = true

instance decidableForallOk {ε α : Type} (x : Except ε α) (P : α → Prop) [DecidablePred P] :
    Decidable (∀ a, x = .ok a → P a) :=
  match x with
  | .ok a => decidable_of_iff (P a) ⟨fun h _ heq => Except.ok.inj heq ▸ h, fun h => h a rfl⟩
  | .error _ => isTrue fun _ heq => nomatch heq

/-- **What a dry run tells of the run that writes files.** -/
structure Foretells (l : Libraries) (s : Settings) (t : FileTree)
    (files : List (String × String)) (dry real : Outcome) : Prop where
  /-- The dry run succeeds. -/
  dry_exitCode : dry.exitCode = 0
  /-- It changes nothing. -/
  dry_tree : dry.tree = t
  /-- It prints the paths of the files, in order. -/
  dry_output : dry.output =
    String.join (files.map fun file => l.echo (s.pathOf file.1).text ++ "\n")
  /-- A path is printed as it is, unless the output directory has an escape character. -/
  printed : Text.escapeChar ∉ s.outDir.text.toList → ∀ file ∈ files,
    l.echo (s.pathOf file.1).text = (s.pathOf file.1).text
  /-- Every path is one line, unless the output directory is not. -/
  line : '\n' ∉ s.outDir.text.toList → ∀ file ∈ files, '\n' ∉ (s.pathOf file.1).text.toList
  /-- The run succeeds exactly if all texts can be encoded. -/
  real_exitCode :
    real.exitCode = if files.all (Text.isEncodable ·.2) then 0 else 1
  /-- It writes the files into the output directory, in that order, up to the first whose text
  cannot be encoded. -/
  left : (real.tree.filesBelow (t.placeOf s.outDir)).reverse =
    FileTree.kept (byNames files)
  /-- If it succeeds, these are all files. -/
  written : real.exitCode = 0 →
    (real.tree.filesBelow (t.placeOf s.outDir)).reverse = byNames files
  /-- They are read back from the paths that the dry run has printed. -/
  read : real.exitCode = 0 → ∀ file ∈ files, real.tree.read (s.pathOf file.1) = some file.2
  /-- Nothing else changes, but directories on the way to the output directory. -/
  grown : t.GrownBelow (t.start s.outDir) s.outDir.parts real.tree

/-- **The generated files are source files** that can be written, and none is on the way to another
one. -/
theorem Undisturbed.fits (h : Undisturbed l document s t)
    (hfiles : s.filesFrom l document (t.read document) = .ok files) :
    (∀ file ∈ files, IsSourcePath file.1 ∧ FileTree.Fits t s.outDir (stepsOf file.1)) ∧
      (files.map fun file => stepsOf file.1).Pairwise FileTree.Apart := by
  obtain ⟨o, g, described, ho, hg, hdescribed, hgenerate⟩ := Settings.filesFrom_eq_ok hfiles
  obtain ⟨hsource, hapart⟩ :=
    isSourcePath_of_generate hdescribed (h.named g hg) (h.base o ho) hgenerate
  have hroot : t.get? (t.start s.outDir) = some .directory := by
    rw [FileTree.start]
    split
    · exact h.working
    · rfl
  refine ⟨fun file hfile => ⟨hsource file hfile, ?_⟩, hapart⟩
  have hbelow := (hsource file hfile).leadsBelow
  have hwrite := h.system files hfiles file hfile
  rw [Settings.pathOf, Path.join_ofString _ hbelow] at hwrite
  exact FileTree.fits_of_write hroot (stepsOf_ne_nil file.1) hbelow hwrite

/-- A dry run is to print the paths of the files. -/
theorem Settings.plan_dry (s : Settings) (files : List (String × String)) :
    s.dry.plan files = { lines := files.map fun file => (s.pathOf file.1).text } := by
  simp only [plan, dry, if_true, List.map_map]
  rfl

/-- A run that is no dry run is to write the files. -/
theorem Settings.plan_of_not_dry (h : s.dryRun = false) (files : List (String × String)) :
    s.plan files = { writes := files.map fun file => (s.pathOf file.1, file.2) } := by
  simp only [plan, h, Bool.false_eq_true, if_false]
  rfl

/-- **Lines that can be encoded are printed.** -/
theorem Plan.run_of_lines {lines : List String} (h : ∀ line ∈ lines, Text.isEncodable line = true)
    (l : Libraries) (t : FileTree) : Plan.run { lines } l t = {
      exitCode := 0
      output := String.join (lines.map (l.echo · ++ "\n"))
      tree := t } := by
  have hprintable : Plan.isPrintable { lines } = true := List.all_eq_true.mpr h
  have hprinted : Plan.printed { lines } l = lines.map l.echo :=
    congrArg (List.map l.echo) (List.takeWhile_eq_self_iff.mpr h)
  rw [Plan.run, if_pos hprintable, Plan.output, hprinted, List.map_map]
  rfl

/-- Without lines to print, files are written. -/
theorem Plan.run_of_writes (writes : List (Path × String)) (l : Libraries) (t : FileTree) :
    Plan.run { writes } l t = {
      exitCode := if (t.writeAll writes).1 then 0 else writeFailure
      tree := (t.writeAll writes).2 } :=
  rfl

/-- **The files are written** by the run that writes files, as far as their texts can be encoded. -/
theorem Undisturbed.writeAll (h : Undisturbed l document s t)
    (hfiles : s.filesFrom l document (t.read document) = .ok files) :
    (t.writeAll (files.map fun file => (s.pathOf file.1, file.2))).1 =
        files.all (Text.isEncodable ·.2) ∧
      FileTree.Filled t s.outDir (FileTree.kept (byNames files))
        (t.writeAll (files.map fun file => (s.pathOf file.1, file.2))).2 := by
  obtain ⟨hfits, hapart⟩ := h.fits hfiles
  have hwrites : (files.map fun file => (s.pathOf file.1, file.2)) =
      (byNames files).map fun file => (s.outDir.below file.1, file.2) := by
    rw [byNames, List.map_map]
    exact List.map_congr_left fun file hfile =>
      congrArg (·, file.2) (Path.join_ofString _ (hfits file hfile).1.leadsBelow)
  have hencodable : (byNames files).all (Text.isEncodable ·.2) =
      files.all (Text.isEncodable ·.2) := by
    rw [byNames, List.all_map]
    rfl
  have hfits' : ∀ file ∈ byNames files, FileTree.Fits t s.outDir file.1 :=
    List.forall_mem_map.mpr fun file hfile => (hfits file hfile).2
  have hapart' : (([] : List (List String × String)).map Prod.fst ++
      (byNames files).map Prod.fst).Pairwise FileTree.Apart := by
    rw [List.map_nil, List.nil_append, byNames, List.map_map]
    exact hapart
  rw [hwrites, ← hencodable]
  exact (FileTree.filled_nil h.vacant).writeAll hfits' hapart'

/-- **Of the runs that write and print files**, one foretells the other. -/
theorem Undisturbed.foretells (h : Undisturbed l document s t) (hl : l.Reliable)
    (hfiles : s.filesFrom l document (t.read document) = .ok files) :
    Foretells l s t files ((s.dry.plan files).run l t) ((s.plan files).run l t) := by
  obtain ⟨hfits, -⟩ := h.fits hfiles
  obtain ⟨hsucceeds, hfilled⟩ := h.writeAll hfiles
  have hsource : ∀ file ∈ files, IsSourcePath file.1 := fun file hfile => (hfits file hfile).1
  have hpath : ∀ file ∈ files, s.pathOf file.1 = s.outDir.below (stepsOf file.1) :=
    fun file hfile => Path.join_ofString _ (hsource file hfile).leadsBelow
  have hprintable : ∀ line ∈ files.map fun file => (s.pathOf file.1).text,
      Text.isEncodable line = true := by
    refine List.forall_mem_map.mpr fun file hfile => Path.isEncodable_text ?_
    rw [hpath file hfile]
    exact (hfits file hfile).2.isUsable
  have hgrown := Plan.grownBelow_run s l t fun file hfile => (hsource file hfile).leadsBelow
  rw [s.plan_of_not_dry h.not_dry, Plan.run_of_writes] at hgrown ⊢
  rw [s.plan_dry, Plan.run_of_lines hprintable]
  generalize t.writeAll (files.map fun file => (s.pathOf file.1, file.2)) = written at *
  obtain ⟨succeeded, tree⟩ := written
  dsimp only at hsucceeds hfilled hgrown ⊢
  subst hsucceeds
  -- A run that succeeds has come to no text that it cannot encode.
  have hall : (if files.all (Text.isEncodable ·.2) then 0 else writeFailure) = 0 →
      FileTree.kept (byNames files) = byNames files := by
    intro hexit
    split at hexit
    · next hencodable =>
      exact FileTree.kept_eq_self (List.forall_mem_map.mpr (List.all_eq_true.mp hencodable))
    · cases hexit
  have hleft := congrArg List.reverse hfilled.files
  rw [List.reverse_reverse] at hleft
  exact {
    dry_exitCode := rfl
    dry_tree := rfl
    dry_output := by rw [List.map_map]; rfl
    printed := fun hdir file hfile => hl.echo
      (notMem_text_join (hsource file hfile) hdir (by decide) (by decide) (by decide))
    line := fun hdir file hfile =>
      notMem_text_join (hsource file hfile) hdir (by decide) (by decide) (by decide)
    real_exitCode := rfl
    left := hleft
    written := fun hexit => hleft.trans (hall hexit)
    read := fun hexit file hfile => by
      have hmem : (stepsOf file.1, file.2) ∈ FileTree.kept (byNames files) := by
        rw [hall hexit]
        exact List.mem_map_of_mem hfile
      have hread := hfilled.read_eq hmem
      rw [hpath file hfile]
      exact hread
    grown := hgrown }

/-! ## What a dry run foretells -/

/-- **Runs that are refused**, and the exit status of each. -/
inductive Refused (l : Libraries) (environment : Option String) (arguments : List String)
    (t : FileTree) : Nat → Prop where
  /-- The arguments say no command. -/
  | arguments {e : UsageError} (h : l.command environment arguments = .error e) :
    Refused l environment arguments t e.exitCode
  /-- The base package is not one. -/
  | basePackage {document : Path} {s : Settings}
    (hcommand : l.command environment arguments = .ok (.generate document s))
    (hbase : isBasePackage s.basePackage = false) : Refused l environment arguments t 1
  /-- The document cannot be read. -/
  | document {document : Path} {s : Settings}
    (hcommand : l.command environment arguments = .ok (.generate document s))
    (hbase : isBasePackage s.basePackage = true)
    (hread : t.read document = none) : Refused l environment arguments t 1
  /-- The text of the document describes no graph, or nothing can be generated from the graph. -/
  | fault {document : Path} {s : Settings} {o : Options} {text : String} {f : Fault}
    (hcommand : l.command environment arguments = .ok (.generate document s))
    (hoptions : s.options = .ok o) (hread : t.read document = some text)
    (hfault : Graph.load l.read text >>= (generate · o) = .error f) :
    Refused l environment arguments t f.exitCode

/-- **Where no files are generated**, the run is refused. -/
theorem refused_of_filesFrom {refusal : Refusal}
    (hcommand : l.command environment arguments = .ok (.generate document s))
    (h : s.filesFrom l document (t.read document) = .error refusal) :
    Refused l environment arguments t refusal.exitCode := by
  cases hbase : isBasePackage s.basePackage with
  | false =>
    have hoptions : s.options = .error (.basePackage s.basePackage) := by
      rw [Settings.options, Options.make, dif_neg (by simp [hbase])]
      rfl
    rw [Settings.filesFrom, hoptions] at h
    obtain rfl := Except.error.inj h
    exact .basePackage hcommand hbase
  | true =>
    have hoptions : s.options = .ok ⟨s.basePackage, s.world, s.header, hbase⟩ := by
      rw [Settings.options, Options.make, dif_pos hbase]
      rfl
    cases hread : t.read document with
    | none =>
      rw [hread, Settings.filesFrom, hoptions] at h
      obtain rfl := Except.error.inj h
      exact .document hcommand hbase hread
    | some text =>
      rw [hread, Settings.filesFrom_some hoptions] at h
      cases hfault : Graph.load l.read text >>=
          (generate · ⟨s.basePackage, s.world, s.header, hbase⟩) with
      | error f =>
        rw [hfault] at h
        obtain rfl := Except.error.inj h
        exact .fault hcommand hoptions hread hfault
      | ok files =>
        rw [hfault] at h
        cases h

/-- **A dry run foretells the run.** Of two runs with the same arguments, one of them with the
switch for a dry run, on a file tree with an empty output directory: either both are refused with
one exit status, which is that of the reason, and change nothing; or files are generated, and then
the dry run succeeds and prints the paths of the files that the other one writes. That one succeeds
if it can encode their texts. Nothing is assumed of how documents are read. -/
theorem dryRun_foretells (hl : l.Reliable) (hswitch : l.TakesDryRun environment front arguments)
    (h : ∀ document s, l.command environment ("generate" :: front ++ arguments)
      = .ok (.generate document s) → Undisturbed l document s t) :
    let real := runProgram l environment ("generate" :: front ++ arguments) t
    let dry := runProgram l environment ("generate" :: front ++ "--dry-run" :: arguments) t
    (dry = real ∧ real.tree = t ∧ real.exitCode ≠ 0 ∧
        Refused l environment ("generate" :: front ++ arguments) t real.exitCode) ∨
      ∃ document s files,
        l.command environment ("generate" :: front ++ arguments) = .ok (.generate document s) ∧
          s.filesFrom l document (t.read document) = .ok files ∧
          Foretells l s t files dry real := by
  intro real dry
  have hdry : l.command environment ("generate" :: front ++ "--dry-run" :: arguments) =
    Command.dry <$> l.command environment ("generate" :: front ++ arguments) := hswitch
  cases hcommand : l.command environment ("generate" :: front ++ arguments) with
  | error e =>
    rw [hcommand] at hdry
    have hreal : real = { exitCode := e.exitCode, tree := t } := by
      simp only [real, runProgram, hcommand]
    have hsame : dry = { exitCode := e.exitCode, tree := t } := by
      simp only [dry, runProgram, hdry]
      rfl
    rw [hsame, hreal]
    exact .inl ⟨rfl, rfl, e.exitCode_ne_zero, .arguments hcommand⟩
  | ok c =>
    obtain ⟨document, s, rfl⟩ := hl.generate hcommand
    rw [hcommand] at hdry
    have hreal : real = (Command.generate document s).run l t := by
      simp only [real, runProgram, hcommand]
    have hsame : dry = (Command.generate document s.dry).run l t := by
      simp only [dry, runProgram, hdry]
      rfl
    have hfrom : s.dry.filesFrom = s.filesFrom := rfl
    rw [Command.run_generate] at hreal hsame
    rw [hfrom] at hsame
    cases hfiles : s.filesFrom l document (t.read document) with
    | error refusal =>
      rw [hfiles] at hreal hsame
      rw [hsame, hreal]
      exact .inl ⟨rfl, rfl, refusal.exitCode_ne_zero,
        refused_of_filesFrom hcommand hfiles⟩
    | ok files =>
      rw [hfiles] at hreal hsame
      rw [hsame, hreal]
      exact .inr ⟨document, s, files, rfl, hfiles, (h document s hcommand).foretells hl hfiles⟩

/-! ## A text that cannot be encoded -/

/-- A working directory with a document in it. -/
def treeWith (text : String) : FileTree :=
  (FileTree.empty ["work"]).put ["work", "doc.json"] (.file text)

/-- A world that imports one function, and is described by a text. -/
def describedWorld (docs : String) : String :=
  "\x7b\"worlds\": [\x7b\"name\": \"w\", \"docs\": \"" ++ docs ++
    "\", \"imports\": \x7b\"f\": \x7b\"function\": \x7b\"name\": \"f\"\x7d\x7d\x7d\x7d]\x7d"

/-- The arguments name the document. -/
theorem command_doc : Libraries.bundled.command none ["generate", "doc.json"] =
    .ok (.generate ⟨0, ["doc.json"]⟩ {}) := rfl

/-- A description in letters can be encoded, and the dry run prints the path of the file that the
run writes. -/
theorem dryRun_foretells_plain :
    Libraries.bundled.Reliable ∧ Libraries.bundled.TakesDryRun none ["doc.json"] [] ∧
      (∀ document s, Libraries.bundled.command none ["generate", "doc.json"]
          = .ok (.generate document s) →
        Undisturbed .bundled document s (treeWith (describedWorld "plain"))) ∧
      (runProgram .bundled none ["generate", "doc.json", "--dry-run"]
        (treeWith (describedWorld "plain"))).output = "generated/componentmodel/w/package.scala\n" ∧
      ∃ files, Foretells .bundled {} (treeWith (describedWorld "plain")) files
        (runProgram .bundled none ["generate", "doc.json", "--dry-run"]
          (treeWith (describedWorld "plain")))
        (runProgram .bundled none ["generate", "doc.json"]
          (treeWith (describedWorld "plain"))) := by
  have hswitch : Libraries.bundled.TakesDryRun none ["doc.json"] [] :=
    Libraries.takesDryRun_bundled rfl none []
  have h : ∀ document s, Libraries.bundled.command none ["generate", "doc.json"]
      = .ok (.generate document s) →
        Undisturbed .bundled document s (treeWith (describedWorld "plain")) := by
    intro document s hcommand
    obtain ⟨rfl, rfl⟩ := Command.generate.inj (Except.ok.inj (command_doc.symm.trans hcommand))
    exact ⟨rfl, by decide +kernel, by decide +kernel, by decide, by decide, by decide +kernel⟩
  obtain ⟨hsucceeds, houtput⟩ : (runProgram .bundled none ["generate", "doc.json", "--dry-run"]
        (treeWith (describedWorld "plain"))).exitCode = 0 ∧
      (runProgram .bundled none ["generate", "doc.json", "--dry-run"]
        (treeWith (describedWorld "plain"))).output =
          "generated/componentmodel/w/package.scala\n" := by decide +kernel
  refine ⟨Libraries.reliable_bundled, hswitch, h, houtput, ?_⟩
  rcases dryRun_foretells Libraries.reliable_bundled hswitch h with
    ⟨hsame, -, hne, -⟩ | ⟨document, s, files, hcommand, -, hforetells⟩
  · rw [← hsame] at hne
    exact absurd hsucceeds hne
  · obtain ⟨rfl, rfl⟩ := Command.generate.inj (Except.ok.inj (command_doc.symm.trans hcommand))
    exact ⟨files, hforetells⟩

/-- The tree with a description that has a pair of surrogates, written by its halves. -/
def smilingTree : FileTree := treeWith (describedWorld "smile \\ud83d\\ude00")

/-- **A run can fail where the dry run succeeds.** A pair of surrogates that is written by its
halves cannot be encoded, and the run leaves an empty file behind. -/
theorem not_foretold :
    Libraries.bundled.Reliable ∧ Libraries.bundled.TakesDryRun none [] ["doc.json"] ∧
      Libraries.bundled.command none ["generate", "doc.json"] =
        .ok (.generate ⟨0, ["doc.json"]⟩ {}) ∧
      Undisturbed .bundled ⟨0, ["doc.json"]⟩ {} smilingTree ∧
      (runProgram .bundled none ["generate", "--dry-run", "doc.json"] smilingTree).exitCode = 0 ∧
      (runProgram .bundled none ["generate", "doc.json"] smilingTree).exitCode = 1 ∧
      smilingTree.get? ["work", "generated", "componentmodel", "w", "package.scala"] = none ∧
      (runProgram .bundled none ["generate", "doc.json"] smilingTree).tree.get?
        ["work", "generated", "componentmodel", "w", "package.scala"] = some (.file "") := by
  have undisturbed : Undisturbed .bundled ⟨0, ["doc.json"]⟩ {} smilingTree :=
    ⟨rfl, by decide +kernel, by decide +kernel, by decide, by decide, by decide +kernel⟩
  exact ⟨Libraries.reliable_bundled, Libraries.takesDryRun_bundled rfl none ["doc.json"],
    command_doc, undisturbed, by decide +kernel⟩

end ComponentBindings
