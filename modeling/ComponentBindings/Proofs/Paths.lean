import ComponentBindings.Proofs.Apart
import ComponentBindings.Proofs.Segments

/-!
# Which modules share a path

A path is written from the segments of a location and the name of its file,
with slashes between them. Nothing in the claims keeps a slash out of a name,
and a name in backticks claims an identifier of its own for a file that is
named without them. Names that do neither are plain (`IsPlain`), and for these
the path can be read back: it tells the direction, it tells interfaces from
worlds, and in one direction it tells interfaces apart as well as the claims
do. An import is never taken for an export since the segment `exports` is
claimed before anything else (`Assignment.Placed.isPrefix_iff`).

What is left are interfaces that are called the same. They claim the same
identifiers for the same names, and share a path without a fault.
-/

namespace ComponentBindings

/-! ## Reading a path back -/

/-- **Parts without marks are read back** from what they are joined to. -/
theorem eq_of_intercalate_eq {sep : String} {mark : Char} {parts parts' : List String}
    (hsep : sep.toList = [mark]) (h : sep.intercalate parts = sep.intercalate parts')
    (hne : parts ≠ []) (hne' : parts' ≠ []) (hmark : ∀ part ∈ parts, mark ∉ part.toList)
    (hmark' : ∀ part ∈ parts', mark ∉ part.toList) : parts = parts' := by
  have hread : ∀ {parts : List String}, parts ≠ [] → (∀ part ∈ parts, mark ∉ part.toList) →
      (sep.intercalate parts).toList.splitOn mark = parts.map String.toList := by
    intro parts hne hmark
    rw [String.toList_intercalate, hsep, List.splitOn_intercalate]
    · simpa using hmark
    · simpa using hne
  have hsame : parts.map String.toList = parts'.map String.toList := by
    rw [← hread hne hmark, h, hread hne' hmark']
  exact List.map_injective_iff.mpr (fun _ _ heq => String.toList_inj.mp heq) hsame

/-- The parts of a path: its directories and its file. -/
def Location.parts (l : Location) : List String := l.segments ++ [l.fileName]

/-- Locations whose parts have no slashes have one path only if they have the
same directories and file. -/
theorem Location.eq_of_path_eq {l l' : Location} (h : l.path = l'.path)
    (hslash : ∀ part ∈ l.parts, '/' ∉ part.toList)
    (hslash' : ∀ part ∈ l'.parts, '/' ∉ part.toList) :
    l.segments = l'.segments ∧ l.fileName = l'.fileName := by
  have hparts := eq_of_intercalate_eq rfl h (by simp) (by simp) hslash hslash'
  have hpair := List.append_inj' hparts rfl
  exact ⟨hpair.1, List.singleton_inj.mp hpair.2⟩

/-! ## Plain names -/

/-- A text that can be read back from a path: it has no slash, and no
backticks around it. -/
def IsPlainText (text : String) : Prop := '/' ∉ text.toList ∧ unescape text = text

/-- **A plain name**: its file is named by a plain text. -/
def IsPlain (name : String) : Prop :=
  ∀ text, Convention.module.convert name = .ok text → IsPlainText text

instance : DecidablePred IsPlainText := fun text =>
  inferInstanceAs (Decidable ('/' ∉ text.toList ∧ unescape text = text))

instance : DecidablePred IsPlain := fun name =>
  match h : Convention.module.convert name with
  | .ok text => decidable_of_iff (IsPlainText text) (by simp [IsPlain, h])
  | .error _ => isTrue (by simp [IsPlain, h])

/-- Backticks that are put around a plain text are taken off again. -/
theorem IsPlainText.unescape_escape {text : String} (h : IsPlainText text) :
    unescape (escape reservedWords text) = text := by
  unfold escape
  split
  · rw [← String.toList_inj]
    simp [unescape]
  · exact h.2

/-- The file of a plain name is named without slashes, and its identifier can
be told from that name. -/
theorem IsPlain.of_identifierOf {name identifier : String} (h : IsPlain name)
    (hidentifier : identifierOf .module name = .ok identifier) :
    '/' ∉ (unescape identifier).toList ∧
      identifier = escape reservedWords (unescape identifier) := by
  obtain ⟨text, htext, rfl⟩ := except_map_eq_ok.mp hidentifier
  have hplain := h text htext
  rw [hplain.unescape_escape]
  exact ⟨hplain.1, rfl⟩

/-! ## The base package -/

/-- **The segments of the base package are plain texts.** -/
theorem Options.isPlainText_of_mem {o : Options} {segment : String} (h : segment ∈ o.baseSegments) :
    IsPlainText segment := by
  have hpass := passesAsSegment_of_mem h
  refine ⟨fun hslash => absurd (hpass.isSegmentPart_or hslash) (by decide), ?_⟩
  unfold unescape
  split
  · next hquoted =>
    obtain ⟨first, rest, htext, hfirst⟩ := hpass.exists_eq_cons
    rw [htext, List.cons.injEq] at hquoted
    obtain ⟨rfl, -⟩ := hquoted
    cases hfirst
  · rfl

/-! ## Locations of plain names -/

namespace Layout

variable {l : Layout} {claims : Claims} {package package' : Option PackageName}
  {name name' : String} {direction : Direction} {location location' : Location}

/-- The segments of the base are plain texts. -/
def PlainBase (l : Layout) : Prop := ∀ segment ∈ l.base, IsPlainText segment

/-- **The directories of a root**: those of the base, and one for exports. -/
theorem PlainBase.map_root (h : l.PlainBase) :
    (l.root direction).map unescape
      = l.base ++ if direction = .exported then [exportsSegment] else [] := by
  have hbase : (l.base.map (escape reservedWords)).map unescape = l.base := by
    rw [List.map_map]
    exact (List.map_congr_left fun segment hmem => (h segment hmem).unescape_escape).trans
      (List.map_id _)
  cases direction with
  | imported => exact hbase.trans (List.append_nil _).symm
  | exported =>
    show List.map unescape (l.base.map (escape reservedWords) ++ [exportsSegment]) = _
    rw [List.map_append, hbase]
    rfl

/-- There are no slashes in the directories of a root. -/
theorem PlainBase.slash_notMem (h : l.PlainBase) {segment : String}
    (hmem : segment ∈ (l.root direction).map unescape) : '/' ∉ segment.toList := by
  rw [h.map_root, List.mem_append] at hmem
  rcases hmem with hmem | hmem
  · exact (h segment hmem).1
  · split at hmem
    · rw [List.mem_singleton.mp hmem]
      decide
    · cases hmem

/-- A package and a name in it that are plain. -/
def PlainlyCalled (package : Option PackageName) (name : String) : Prop :=
  IsPlain name ∧ ∀ p, package = some p → IsPlain p.ns ∧ IsPlain p.name

/-- There are no slashes in the parts of an interface that is called
plainly. -/
theorem PlainlyCalled.slash_notMem (hplain : PlainlyCalled package name) (hbase : l.PlainBase)
    (h : l.interfacePlace package name direction = .ok location) :
    ∀ part ∈ location.parts, '/' ∉ part.toList := by
  obtain ⟨segments, module, hsegments, hmodule, hdirectories, hfile⟩ := parts_of_interfacePlace h
  intro part hpart
  rw [Location.parts, List.mem_append, List.mem_singleton, hdirectories, hfile] at hpart
  rcases hpart with hpart | rfl
  · rcases packagePlace_eq_ok hsegments with ⟨-, rfl⟩ | ⟨p, ns, packageName, hp, hns, hname, rfl⟩
    · exact hbase.slash_notMem hpart
    · obtain ⟨hnsPlain, hnamePlain⟩ := hplain.2 p hp
      rw [List.map_append, List.mem_append] at hpart
      rcases hpart with hpart | hpart
      · exact hbase.slash_notMem hpart
      · simp only [List.map_cons, List.map_nil, List.mem_cons, List.not_mem_nil, or_false] at hpart
        rcases hpart with rfl | rfl
        · exact (hnsPlain.of_identifierOf hns).1
        · exact (hnamePlain.of_identifierOf hname).1
  · rw [String.toList_append, List.mem_append, not_or]
    exact ⟨(hplain.1.of_identifierOf hmodule).1, by decide⟩

/-- There are no slashes in the parts of a world with a plain name. -/
theorem slash_notMem_of_worldPlace (hplain : IsPlain name) (hbase : l.PlainBase)
    (h : l.worldPlace name direction = .ok location) :
    ∀ part ∈ location.parts, '/' ∉ part.toList := by
  obtain ⟨module, hmodule, hdirectories, hfile⟩ := parts_of_worldPlace h
  intro part hpart
  rw [Location.parts, List.mem_append, List.mem_singleton, hdirectories, hfile, List.mem_append,
    List.mem_singleton] at hpart
  rcases hpart with (hpart | rfl) | rfl
  · exact hbase.slash_notMem hpart
  · exact (hplain.of_identifierOf hmodule).1
  · decide

/-- Plain names with one file have one identifier. -/
theorem eq_of_unescape_eq {identifier identifier' : String} (h : IsPlain name) (h' : IsPlain name')
    (hidentifier : identifierOf .module name = .ok identifier)
    (hidentifier' : identifierOf .module name' = .ok identifier')
    (heq : unescape identifier = unescape identifier') : identifier = identifier' := by
  rw [(h.of_identifierOf hidentifier).2, (h'.of_identifierOf hidentifier').2, heq]

/-- **Interfaces that are called plainly and share their directories and file**
in one direction are called the same. -/
theorem PlainlyCalled.called_eq (hplain : PlainlyCalled package name)
    (hplain' : PlainlyCalled package' name')
    (h : l.interfacePlace package name direction = .ok location)
    (h' : l.interfacePlace package' name' direction = .ok location')
    (hgranted : l.Granted claims package name location)
    (hgranted' : l.Granted claims package' name' location')
    (hversion : ∀ p, package = some p → p.version ≠ some "")
    (hversion' : ∀ p, package' = some p → p.version ≠ some "")
    (hsame : location.segments = location'.segments)
    (hfile : location.fileName = location'.fileName) :
    package = package' ∧ name = name' := by
  obtain ⟨segments, module, hsegments, hmodule, hdirectories, hfileOf⟩ := parts_of_interfacePlace h
  obtain ⟨segments', module', hsegments', hmodule', hdirectories', hfileOf'⟩ :=
    parts_of_interfacePlace h'
  have hmap := hdirectories.symm.trans (hsame.trans hdirectories')
  have hlength := congrArg List.length hmap
  obtain rfl : segments = segments' := by
    rcases packagePlace_eq_ok hsegments with ⟨-, rfl⟩ | ⟨p, ns, pname, hp, hns, hpname, rfl⟩ <;>
      rcases packagePlace_eq_ok hsegments' with
        ⟨-, rfl⟩ | ⟨p', ns', pname', hp', hns', hpname', rfl⟩
    · rfl
    · simp at hlength
    · simp at hlength
    · simp only [List.map_append, List.map_cons, List.map_nil, List.append_cancel_left_eq,
        List.cons.injEq, and_true] at hmap
      rw [eq_of_unescape_eq (hplain.2 p hp).1 (hplain'.2 p' hp').1 hns hns' hmap.1,
        eq_of_unescape_eq (hplain.2 p hp).2 (hplain'.2 p' hp').2 hpname hpname' hmap.2]
  obtain rfl : module = module' := by
    rw [hfileOf, hfileOf', String.append_left_inj] at hfile
    exact eq_of_unescape_eq hplain.1 hplain'.1 hmodule hmodule' hfile
  have hpackage := hgranted.packageOf_eq hgranted' (direction_of_interfacePlace h)
    (direction_of_interfacePlace h') hsegments hsegments'
  exact hgranted.called_eq hgranted' hpackage hversion hversion' hsame hmodule hmodule'

/-! ## The directory of the exports -/

/-- The directories of an exported interface begin with the one of the
exports. -/
theorem isPrefix_of_interfacePlace (hbase : l.PlainBase)
    (h : l.interfacePlace package name .exported = .ok location) :
    l.base ++ [exportsSegment] <+: location.segments := by
  obtain ⟨segments, _, hsegments, -, hdirectories, -⟩ := parts_of_interfacePlace h
  rw [hdirectories]
  rcases packagePlace_eq_ok hsegments with ⟨-, rfl⟩ | ⟨_, _, _, -, -, -, rfl⟩
  · rw [hbase.map_root, if_pos rfl]
  · rw [List.map_append, hbase.map_root, if_pos rfl]
    exact List.prefix_append _ _

/-- The directories of the exports of a world begin with the one of the
exports. -/
theorem isPrefix_of_worldPlace (hbase : l.PlainBase)
    (h : l.worldPlace name .exported = .ok location) :
    l.base ++ [exportsSegment] <+: location.segments := by
  obtain ⟨_, -, hdirectories, -⟩ := parts_of_worldPlace h
  rw [hdirectories, hbase.map_root, if_pos rfl]
  exact List.prefix_append _ _

/-- A plain name that holds a segment in the root of the imports is not
`exports` there. -/
theorem HoldsExports.unescape_ne (hexports : l.HoldsExports claims) (hbase : l.PlainBase)
    {identifier raw : String} (hplain : IsPlain name)
    (hidentifier : identifierOf .module name = .ok identifier)
    (hheld : claims.holder? (packageScope (l.root .imported)) identifier = some raw)
    (hraw : raw ≠ "<" ++ exportsSegment ++ ">") : unescape identifier ≠ exportsSegment := by
  intro heq
  have hescaped : identifier = exportsSegment := by
    rw [(hplain.of_identifierOf hidentifier).2, heq]
    rfl
  rw [packageScope, hbase.map_root, if_neg (by decide), List.append_nil, hescaped] at hheld
  exact hraw (Option.some.inj (hheld.symm.trans hexports))

/-- **The directories of an imported interface** do not begin with the one of
the exports. -/
theorem PlainlyCalled.not_isPrefix (hplain : PlainlyCalled package name) (hbase : l.PlainBase)
    (hexports : l.HoldsExports claims)
    (h : l.interfacePlace package name .imported = .ok location)
    (hgranted : l.Granted claims package name location) :
    ¬ l.base ++ [exportsSegment] <+: location.segments := by
  obtain ⟨segments, _, hsegments, -, hdirectories, -⟩ := parts_of_interfacePlace h
  have hdirection := direction_of_interfacePlace h
  rw [hdirectories]
  rcases packagePlace_eq_ok hsegments with ⟨-, rfl⟩ | ⟨p, ns, pname, hp, hns, -, rfl⟩
  · rw [hbase.map_root, if_neg (by decide), List.prefix_append_right_inj]
    simp
  · rw [List.map_append, hbase.map_root, if_neg (by decide), List.append_nil,
      List.prefix_append_right_inj]
    have hheld := hgranted.ns hp hns
    rw [hdirection] at hheld
    have hne : unescape ns ≠ exportsSegment := by
      by_cases hraw : p.ns = "<" ++ exportsSegment ++ ">"
      · -- A namespace that is called like that claim has another file.
        have hraw' : identifierOf .module p.ns = .ok "<exports>" := by rw [hraw]; rfl
        obtain rfl := Except.ok.inj (hns.symm.trans hraw')
        decide
      · exact hexports.unescape_ne hbase (hplain.2 p hp).1 hns hheld hraw
    simpa using fun heq => hne heq.symm

/-- **The directories of the imports of a world** do not begin with the one of
the exports. -/
theorem not_isPrefix_of_worldPlace (hplain : IsPlain name) (hbase : l.PlainBase)
    (hexports : l.HoldsExports claims) (h : l.worldPlace name .imported = .ok location)
    (hgranted : l.WorldGranted claims name .imported) :
    ¬ l.base ++ [exportsSegment] <+: location.segments := by
  obtain ⟨module, hmodule, hdirectories, -⟩ := parts_of_worldPlace h
  rw [hdirectories, hbase.map_root, if_neg (by decide), List.append_nil,
    List.prefix_append_right_inj]
  have hraw : "<world " ++ name ++ ">" ≠ "<" ++ exportsSegment ++ ">" := by
    intro heq
    have hlist := congrArg (fun text => text.toList[1]?) heq
    simp [exportsSegment] at hlist
  have hne := hexports.unescape_ne hbase hplain hmodule (hgranted module hmodule) hraw
  simpa using fun heq => hne heq.symm

end Layout

namespace Assignment

variable {a : Assignment} {orderly : a.graph.Orderly} {s : Session} {claims : Claims}
  {key key' : ModuleKey} {location location' : Location}

/-- **A module whose path is written from plain names.** -/
def PlainlyNamed (a : Assignment) : ModuleKey → Prop
  | .interface j _ => ∀ package name, a.calledAs j = .ok (package, name) →
      Layout.PlainlyCalled package name
  | .world _ => IsPlain a.world.name

/-- The modules of two interfaces in one direction, which are called the
same. -/
def SameCall (a : Assignment) : ModuleKey → ModuleKey → Prop
  | .interface j direction, .interface j' direction' =>
    direction = direction' ∧ a.calledAs j = a.calledAs j'
  | _, _ => False

/-- There are no slashes in the parts of a module that is plainly named. -/
theorem Placed.slash_notMem (hplaced : a.Placed claims key location) (hplain : a.PlainlyNamed key)
    (hbase : a.layout.PlainBase) : ∀ part ∈ location.parts, '/' ∉ part.toList := by
  cases key with
  | interface j direction =>
    obtain ⟨package, name, hcalled, hplace⟩ := calledAs_of_interfacePlace hplaced.1
    exact (hplain package name hcalled).slash_notMem hbase hplace
  | world direction => exact Layout.slash_notMem_of_worldPlace hplain hbase hplaced.1

/-- **The directories tell the direction.** -/
theorem Placed.isPrefix_iff (hplaced : a.Placed claims key location) (hplain : a.PlainlyNamed key)
    (hbase : a.layout.PlainBase) (hexports : a.layout.HoldsExports claims) :
    a.layout.base ++ [exportsSegment] <+: location.segments ↔ location.direction = .exported := by
  cases key with
  | interface j direction =>
    obtain ⟨hplace, ⟨package, name, hcalled, hgranted⟩, -⟩ := hplaced
    rw [direction_of_interfacePlace hplace]
    rw [interfacePlace_of_calledAs hcalled] at hplace
    cases direction with
    | imported =>
      have hnot := (hplain package name hcalled).not_isPrefix hbase hexports hplace hgranted
      exact iff_of_false hnot (by decide)
    | exported => exact iff_of_true (Layout.isPrefix_of_interfacePlace hbase hplace) rfl
  | world direction =>
    obtain ⟨hplace, hgranted⟩ := hplaced
    rw [Layout.direction_of_worldPlace hplace]
    cases direction with
    | imported =>
      have hnot := Layout.not_isPrefix_of_worldPlace hplain hbase hexports hplace hgranted
      exact iff_of_false hnot (by decide)
    | exported => exact iff_of_true (Layout.isPrefix_of_worldPlace hbase hplace) rfl

/-- **A path tells modules apart**, if they are plainly named and no
interfaces that are called the same. -/
theorem Placed.key_eq_or_sameCall (orderly : a.graph.Orderly) (hbase : a.layout.PlainBase)
    (hexports : a.layout.HoldsExports claims) (hplaced : a.Placed claims key location)
    (hplaced' : a.Placed claims key' location') (hplain : a.PlainlyNamed key)
    (hplain' : a.PlainlyNamed key') (hpath : location.path = location'.path) :
    key = key' ∨ a.SameCall key key' := by
  obtain ⟨hsegments, hfile⟩ := Location.eq_of_path_eq hpath (hplaced.slash_notMem hplain hbase)
    (hplaced'.slash_notMem hplain' hbase)
  -- Once the directions agree, depths tell interfaces from worlds and claims do the rest.
  have hdirection : location.direction = location'.direction := by
    have hexported := hplaced.isPrefix_iff hplain hbase hexports
    rw [hsegments, hplaced'.isPrefix_iff hplain' hbase hexports] at hexported
    cases hd : location.direction <;> cases hd' : location'.direction <;> simp_all
  cases key with
  | world direction =>
    have hthere := Layout.direction_of_worldPlace hplaced.1
    cases key' with
    | world direction' =>
      rw [← hthere, hdirection, Layout.direction_of_worldPlace hplaced'.1]
      exact .inl rfl
    | interface j' direction' =>
      obtain ⟨_, _, -, hplace'⟩ := calledAs_of_interfacePlace hplaced'.1
      obtain rfl : direction' = direction := by
        rw [← hthere, hdirection, Layout.direction_of_interfacePlace hplace']
      exact absurd hsegments.symm (Layout.segments_ne_of_interfacePlace hplace' hplaced.1)
  | interface j direction =>
    obtain ⟨hplace, ⟨package, name, hcalled, hgranted⟩, -⟩ := hplaced
    have hthere := direction_of_interfacePlace hplace
    rw [interfacePlace_of_calledAs hcalled] at hplace
    cases key' with
    | world direction' =>
      obtain rfl : direction = direction' := by
        rw [← hthere, hdirection, Layout.direction_of_worldPlace hplaced'.1]
      exact absurd hsegments (Layout.segments_ne_of_interfacePlace hplace hplaced'.1)
    | interface j' direction' =>
      obtain ⟨hplace', ⟨package', name', hcalled', hgranted'⟩, -⟩ := hplaced'
      obtain rfl : direction = direction' := by
        rw [← hthere, hdirection, direction_of_interfacePlace hplace']
      rw [interfacePlace_of_calledAs hcalled'] at hplace'
      obtain ⟨rfl, rfl⟩ := (hplain package name hcalled).called_eq (hplain' package' name' hcalled')
        hplace hplace' hgranted hgranted' (version_ne_of_calledAs orderly hcalled)
        (version_ne_of_calledAs orderly hcalled') hsegments hfile
      exact .inr ⟨rfl, hcalled.trans hcalled'.symm⟩

/-- Interfaces that are called the same share their path. -/
theorem Placed.path_eq_of_sameCall (hplaced : a.Placed claims key location)
    (hplaced' : a.Placed claims key' location') (hcall : a.SameCall key key') :
    location.path = location'.path := by
  cases key with
  | world direction => exact hcall.elim
  | interface j direction =>
    cases key' with
    | world direction' => exact hcall.elim
    | interface j' direction' =>
      obtain ⟨rfl, hcalled⟩ := hcall
      have hplace := hplaced.1
      rw [interfacePlace, hcalled] at hplace
      rw [Except.ok.inj (hplace.symm.trans hplaced'.1)]

end Assignment

end ComponentBindings
