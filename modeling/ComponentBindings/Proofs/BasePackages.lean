import ComponentBindings.Proofs.Below
import ComponentBindings.Proofs.Containers
import ComponentBindings.Proofs.Conventions

/-!
# Base packages

A base package is taken if each of its segments passes: if it is an identifier
of letters, digits and underscores, or such an identifier with a line feed
behind it (`Options.PassesAsSegment`). So a name without line feeds is a base
package exactly if it is made of identifiers with dots between them; and one
with line feeds may be taken although it is not.

What is taken is neither corrected nor checked again. Its segments are the
first directories of every module and, escaped, the first segments of every
package clause, with their line feeds (`Options.basePackage_segments`).
-/

namespace ComponentBindings

/-- **What is cut at a mark is joined by it again.** -/
theorem Text.intercalate_pieces {isMark : Char → Bool} {mark : Char}
    (hmark : ∀ c, isMark c = true → c = mark) (cs : List Char) :
    [mark].intercalate (Text.pieces isMark cs) = cs := by
  induction cs with
  | nil => rfl
  | cons c rest ih =>
    obtain ⟨piece, more, hpieces⟩ := List.exists_cons_of_ne_nil (Text.pieces_ne_nil isMark rest)
    rw [Text.pieces]
    split
    · next hc =>
      obtain rfl := hmark c hc
      rw [hpieces, List.intercalate_cons_cons, ← hpieces, ih]
      rfl
    · rw [hpieces] at ih ⊢
      dsimp only
      cases more with
      | nil => simpa using ih
      | cons next more =>
        rw [List.intercalate_cons_cons] at ih ⊢
        rw [← ih]
        rfl

namespace Options

/-! ## Names -/

/-- A text that passes has no dot in it. -/
theorem PassesAsSegment.dot_notMem {text : String} (h : PassesAsSegment text) :
    '.' ∉ text.toList :=
  fun hdot => absurd (h.isSegmentPart_or hdot) (by decide)

/-- A text is joined from the segments that it is cut into. -/
theorem intercalate_segments (name : String) :
    ".".intercalate ((Text.pieces (· = '.') name.toList).map String.ofList) = name := by
  have hjoin : ['.'].intercalate (Text.pieces (· = '.') name.toList) = name.toList :=
    Text.intercalate_pieces (by simp) _
  rw [← String.toList_inj, String.toList_intercalate, List.map_map]
  simpa using hjoin

/-- A text is cut into the segments that it is joined from, if they pass. -/
theorem pieces_intercalate_segments {segments : List String} (hne : segments ≠ [])
    (hpass : ∀ segment ∈ segments, PassesAsSegment segment) :
    Text.pieces (· = '.') (".".intercalate segments).toList = segments.map String.toList := by
  rw [String.toList_intercalate]
  show Text.pieces _ (['.'].intercalate _) = _
  refine Text.pieces_intercalate (by simp) (by simpa using hne) fun cs hcs c hc => ?_
  obtain ⟨segment, hsegment, rfl⟩ := List.mem_map.mp hcs
  rw [decide_eq_false_iff_not]
  rintro rfl
  exact (hpass segment hsegment).dot_notMem hc

/-- **A name made of segments** of one kind, with dots between them. -/
def IsDotted (Segment : String → Prop) (name : String) : Prop :=
  ∃ segments, segments ≠ [] ∧ name = ".".intercalate segments ∧
    ∀ segment ∈ segments, Segment segment

/-- **What is taken as a base package**: segments that pass, with dots between
them. -/
theorem isBasePackage_iff {name : String} :
    isBasePackage name = true ↔ IsDotted PassesAsSegment name := by
  rw [isBasePackage, List.all_eq_true]
  constructor
  · intro h
    refine ⟨_, by simp [Text.pieces_ne_nil], (intercalate_segments name).symm, ?_⟩
    intro segment hmem
    obtain ⟨cs, hcs, rfl⟩ := List.mem_map.mp hmem
    exact isBaseSegment_iff.mp (h cs hcs)
  · rintro ⟨segments, hne, rfl, hpass⟩ cs hcs
    rw [pieces_intercalate_segments hne hpass] at hcs
    obtain ⟨segment, hsegment, rfl⟩ := List.mem_map.mp hcs
    rw [isBaseSegment_iff, String.ofList_toList]
    exact hpass segment hsegment

/-- **A name is made of identifiers** exactly if it is taken and there is no
line feed in it. -/
theorem isDotted_isSegment_iff {name : String} :
    IsDotted IsSegment name ↔ isBasePackage name = true ∧ '\n' ∉ name.toList := by
  rw [isBasePackage_iff]
  constructor
  · rintro ⟨segments, hne, rfl, hsegments⟩
    have hpass : IsDotted PassesAsSegment (".".intercalate segments) :=
      ⟨segments, hne, rfl, fun segment hmem => .inl (hsegments segment hmem)⟩
    refine ⟨hpass, fun hfeed => ?_⟩
    rw [String.toList_intercalate] at hfeed
    rcases of_mem_intercalate hfeed with hdot | ⟨piece, hpiece, hin⟩
    · exact absurd hdot (by decide)
    · obtain ⟨segment, hsegment, rfl⟩ := List.mem_map.mp hpiece
      exact absurd ((hsegments segment hsegment).isSegmentPart _ hin) (by decide)
  · rintro ⟨⟨segments, hne, rfl, hpass⟩, hfeed⟩
    refine ⟨segments, hne, rfl, fun segment hmem => ?_⟩
    refine (hpass segment hmem).isSegment_iff.mpr fun hin => hfeed ?_
    have hpiece := List.mem_map_of_mem (f := String.toList) hmem
    rw [← pieces_intercalate_segments hne hpass] at hpiece
    exact (of_mem_pieces hpiece hin).1

/-- The options are made exactly if the name is taken as a base package. -/
theorem exists_make_iff {name : String} {world : Option String} {header : Bool} :
    (∃ o, make name world header = .ok o) ↔ isBasePackage name = true := by
  unfold make
  split <;> simp_all

/-- The base package of the options that are made is the name. -/
theorem basePackage_of_make {name : String} {world : Option String} {header : Bool} {o : Options}
    (h : make name world header = .ok o) : o.basePackage = name := by
  unfold make at h
  split at h <;> cases h
  rfl

end Options

/-! ## Where the base package goes -/

namespace Layout

variable {l : Layout} {package : Option PackageName} {name : String} {direction : Direction}
  {location : Location}

/-- A location that lies in the base: its directories start with the segments
of the base, and its package with these segments, escaped. -/
def Contains (l : Layout) (location : Location) : Prop :=
  l.base <+: location.segments ∧
    ∃ more, location.package = ".".intercalate (l.base.map (escape reservedWords) ++ more)

/-- Everything in a direction lies below the base. -/
theorem base_prefix_root (l : Layout) (direction : Direction) :
    l.base.map (escape reservedWords) <+: l.root direction := by
  cases direction with
  | imported => exact List.prefix_rfl
  | exported => exact List.prefix_append _ _

/-- Segments below a root are below the base. -/
theorem PlainBase.contains (h : l.PlainBase) {segments directories : List String}
    (hsegments : l.root direction <+: segments) (hdirectories : l.root direction <+: directories)
    (hpackage : location.package = ".".intercalate segments)
    (hlocation : location.segments = directories.map unescape) : l.Contains location := by
  obtain ⟨more, rfl⟩ := (l.base_prefix_root direction).trans hsegments
  obtain ⟨below, rfl⟩ := (l.base_prefix_root direction).trans hdirectories
  refine ⟨?_, more, hpackage⟩
  have hbase : (l.base.map (escape reservedWords)).map unescape = l.base :=
    (show (l.root .imported).map unescape = l.base ++ [] from h.map_root).trans (List.append_nil _)
  rw [hlocation, List.map_append, hbase]
  exact List.prefix_append _ _

/-- A location of an interface lies in the base. -/
theorem PlainBase.contains_interfacePlace (h : l.PlainBase)
    (hplace : l.interfacePlace package name direction = .ok location) : l.Contains location := by
  simp only [interfacePlace, except_bind_eq_ok, except_pure_eq_ok] at hplace
  obtain ⟨segments, hsegments, module, -, _, -, rfl⟩ := hplace
  have hroot : l.root direction <+: segments := by
    rcases packagePlace_eq_ok hsegments with ⟨-, rfl⟩ | ⟨_, _, _, -, -, -, rfl⟩
    · exact List.prefix_rfl
    · exact List.prefix_append _ _
  exact h.contains hroot hroot rfl rfl

/-- A location of a world lies in the base. -/
theorem PlainBase.contains_worldPlace (h : l.PlainBase)
    (hplace : l.worldPlace name direction = .ok location) : l.Contains location := by
  simp only [worldPlace, except_bind_eq_ok, except_pure_eq_ok] at hplace
  obtain ⟨module, -, _, -, rfl⟩ := hplace
  have hself : l.root direction <+: l.root direction := List.prefix_rfl
  have hbelow : l.root direction <+: l.root direction ++ [module] := List.prefix_append _ _
  cases direction with
  | imported => exact h.contains hself hbelow rfl rfl
  | exported => exact h.contains hbelow hbelow rfl rfl

end Layout

/-- **Every module lies in the base package.** -/
theorem Assignment.Placed.contains {a : Assignment} {claims : Claims} {key : ModuleKey}
    {location : Location} (hplaced : a.Placed claims key location) (hbase : a.layout.PlainBase) :
    a.layout.Contains location := by
  cases key with
  | interface j direction =>
    obtain ⟨package, name, -, hplace⟩ := calledAs_of_interfacePlace hplaced.1
    exact hbase.contains_interfacePlace hplace
  | world direction => exact hbase.contains_worldPlace hplaced.1

/-- **Which base packages are taken, and where they go.** A name is taken
exactly if it is made of segments that pass; it is made of identifiers exactly
if it is taken and there is no line feed in it. The segments of the options are
then those of the name. Each of them passes, and is an identifier exactly if it
has no line feed. Every module of a run has them as its first directories and,
escaped, as the first segments of its package clause. -/
theorem Options.basePackage_segments (name : String) (world : Option String) (header : Bool) :
    ((∃ o, Options.make name world header = .ok o) ↔ IsDotted PassesAsSegment name) ∧
    (IsDotted IsSegment name ↔
      (∃ o, Options.make name world header = .ok o) ∧ '\n' ∉ name.toList) ∧
    ∀ o, Options.make name world header = .ok o →
      ".".intercalate o.baseSegments = name ∧
      (∀ segment ∈ o.baseSegments,
        PassesAsSegment segment ∧ (IsSegment segment ↔ '\n' ∉ segment.toList)) ∧
      ∀ document g ms, Graph.ofDocument document = .ok g → generateModules g o = .ok ms →
        ∀ m ∈ ms, o.baseSegments <+: m.location.segments ∧
          ∃ more, m.location.package =
            ".".intercalate (o.baseSegments.map (escape reservedWords) ++ more) := by
  rw [exists_make_iff]
  refine ⟨isBasePackage_iff, isDotted_isSegment_iff, fun o hmake => ?_⟩
  refine ⟨?_, fun segment hmem => ?_, fun document g ms hdocument hrun m hm => ?_⟩
  · rw [← basePackage_of_make hmake]
    exact intercalate_segments o.basePackage
  · have hpass := passesAsSegment_of_mem hmem
    exact ⟨hpass, hpass.isSegment_iff⟩
  · have orderly := Graph.orderly_of_ofDocument hdocument
    obtain ⟨world, s, -, h, rfl⟩ := finished_of_generateModules orderly hrun
    exact (h.progress.kept.placed m hm).contains fun _ => Options.isPlainText_of_mem

/-! ## A base package with a line feed -/

/-- A world that exports an interface. -/
def handlerDocument : Document :=
  .object [
    (.text "packages", .list [.object [(.text "name", .string "a:b")]]),
    (.text "interfaces", .list [
      .object [(.text "name", .string "handler"), (.text "package", .int 0)]]),
    (.text "worlds", .list [.object [(.text "name", .string "w"), (.text "package", .int 0),
      (.text "exports", .object [
        (.text "handler", .object [(.text "interface", .object [(.text "id", .int 0)])])])]])]

/-- The world of that document. -/
def handlerWorld : World where
  id := 0
  name := "w"
  package := some 0
  imports := []
  exports := [(.text "handler", .interface 0)]
  docs := none

/-- The graph of that document. -/
def handlerGraph : Graph where
  packages := [⟨0, ⟨"a", "b", none⟩, [], [], none⟩]
  interfaces := [⟨0, some "handler", some 0, [], [], none⟩]
  types := []
  worlds := [handlerWorld]

/-- Options with a line feed in the base package. -/
def feedOptions : Options where
  basePackage := "com\n.type"
  isBasePackage_basePackage := by decide

/-- What a run with these options assigns to modules. -/
def handlerAssignment : Assignment := ⟨handlerGraph, handlerWorld, ⟨["com\n", "type"]⟩⟩

/-- The module of the interface. -/
def handlerModule : Module where
  key := .interface 0 .exported
  location := ⟨"com\n.\x60type\x60.exports.a.b", "Handler",
    ["com\n", "type", "exports", "a", "b"], "handler.scala", .exported⟩
  docs := none

/-- The session when the interface has been walked. -/
def handlerSession : Session where
  claims := [⟨"com\n.type", "exports", "<exports>"⟩, ⟨"com\n.type.exports", "a", "a"⟩,
    ⟨"com\n.type.exports.a", "b", "b"⟩, ⟨"com\n.type.exports.a.b", "handler", "handler"⟩,
    ⟨"com\n.type.exports.a.b:identity", "handler", "a:b/handler"⟩]
  modules := [handlerModule]

/-- The run returns the module. -/
theorem generateModules_handler :
    generateModules handlerGraph feedOptions = .ok handlerSession.modules := by
  have hitems : handlerAssignment.items.forM handlerAssignment.generateItem
      { claims := [⟨"com\n.type", "exports", "<exports>"⟩] } = .ok () handlerSession := rfl
  exact generateModules_eq_ok rfl rfl hitems rfl

/-- The line feed stands in the package clause and in the name of a directory,
and what it stands behind is no identifier then. -/
theorem Options.basePackage_segments_feed :
    Options.make "com\n.type" none true = .ok feedOptions ∧
      Graph.ofDocument handlerDocument = .ok handlerGraph ∧
      generateModules handlerGraph feedOptions = .ok handlerSession.modules ∧
      feedOptions.baseSegments = ["com\n", "type"] ∧
      ["com\n", "type"] <+: handlerModule.location.segments ∧
      (∃ more, handlerModule.location.package =
        ".".intercalate (["com\n", "\x60type\x60"] ++ more)) ∧
      ¬ IsSegment "com\n" ∧ IsSegment "type" := by
  have hmake : Options.make "com\n.type" none true = .ok feedOptions :=
    dif_pos feedOptions.isBasePackage_basePackage
  have hdocument : Graph.ofDocument handlerDocument = .ok handlerGraph := rfl
  have hsegments : feedOptions.baseSegments = ["com\n", "type"] := by decide
  obtain ⟨-, hpass, hrun⟩ := (Options.basePackage_segments _ _ _).2.2 _ hmake
  have hmodule := hrun _ _ _ hdocument generateModules_handler handlerModule List.mem_cons_self
  rw [hsegments] at hmodule hpass
  obtain ⟨hdirectories, hpackage⟩ := hmodule
  refine ⟨hmake, hdocument, generateModules_handler, hsegments, hdirectories, hpackage,
    fun hcom => ?_, ?_⟩
  · exact (hpass "com\n" (by decide)).2.mp hcom (by decide)
  · exact (hpass "type" (by decide)).2.mpr (by decide)

/-- **A name with a line feed at its end is taken** as a base package, although
it is not made of identifiers. -/
theorem Options.not_dotted_of_make :
    (∃ o, Options.make "com\n" none true = .ok o ∧ o.baseSegments = ["com\n"]) ∧
      ¬ IsDotted IsSegment "com\n" := by
  have htaken : isBasePackage "com\n" = true := by decide
  have hcut : (Text.pieces (· = '.') "com\n".toList).map String.ofList = ["com\n"] := by decide
  refine ⟨⟨⟨"com\n", none, true, htaken⟩, dif_pos htaken, hcut⟩, fun hdotted => ?_⟩
  exact (isDotted_isSegment_iff.mp hdotted).2 (by decide)

end ComponentBindings
