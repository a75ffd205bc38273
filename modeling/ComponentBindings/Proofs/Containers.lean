import ComponentBindings.Proofs.Calls

/-!
# Which containers are told apart

What a file defines is a package object or a trait, and a type in it is
referred to by the package that the file opens, the name of the container and
its own name. Files are told apart by claims to the names of files. The name
of a package object is that of its file, so package objects are told apart
along with them. The name of a trait is made by the convention for types, and
nothing is claimed for it: `a-1` and `a1` have files of their own, and both
are the trait `A1`.

`containers_eq_iff` says that this is all. Locations with different paths
have different packages or containers, unless both are those of exported
interfaces of one package whose names agree as types
(`Layout.Call.SharesTrait`), and names whose words start with letters never do.
-/

namespace ComponentBindings

/-- The name in a call is over letters, digits and hyphens. -/
theorem Layout.Call.Spelled.isNameText {call : Layout.Call} (h : call.Spelled) :
    IsNameText call.name := by
  cases call with
  | interface _ _ _ => exact h.1
  | world _ _ => exact h

/-- There is no mark of a full name in an identifier. -/
theorem IsNameText.mark_notMem {c : Convention} {name identifier : String} (h : IsNameText name)
    (hidentifier : identifierOf c name = .ok identifier) :
    '.' ∉ identifier.toList ∧ '#' ∉ identifier.toList := by
  constructor <;> exact fun hmark =>
    absurd (h.of_identifierOf hidentifier _ hmark) (by decide)

namespace Layout

variable {l : Layout} {claims : Claims} {call call' : Call} {location location' : Location}
  {segments segments' : List String}

/-! ## The package that a file opens -/

/-- The segments of the package that the file of a call opens. -/
def opens (l : Layout) : Call → Except Fault (List String)
  | .interface package _ direction => l.packagePlace package direction
  | .world _ .imported => .ok (l.root .imported)
  | .world name .exported => do return l.root .exported ++ [← identifierOf .module name]

/-- The package of a location is written from the segments that are opened. -/
theorem package_of_place (h : l.place call = .ok location) :
    ∃ segments, l.opens call = .ok segments ∧ location.package = ".".intercalate segments := by
  cases call with
  | interface package name direction =>
    simp only [place, interfacePlace, except_bind_eq_ok, except_pure_eq_ok] at h
    obtain ⟨segments, hsegments, _, -, _, -, rfl⟩ := h
    exact ⟨segments, hsegments, rfl⟩
  | world name direction =>
    simp only [place, worldPlace, except_bind_eq_ok, except_pure_eq_ok] at h
    obtain ⟨module, hmodule, _, -, rfl⟩ := h
    cases direction with
    | imported => exact ⟨_, rfl, rfl⟩
    | exported => exact ⟨l.root .exported ++ [module], by simp [opens, hmodule], rfl⟩

/-- The segments of the base have no dots in them. -/
def DotlessBase (l : Layout) : Prop := l.base ≠ [] ∧ ∀ segment ∈ l.base, '.' ∉ segment.toList

/-- A base package is cut at its dots. -/
theorem dotlessBase_ofOptions (o : Options) : (Layout.mk o.baseSegments).DotlessBase := by
  refine ⟨by simp [Options.baseSegments, Text.pieces_ne_nil], fun segment hmem hdot => ?_⟩
  obtain ⟨piece, hpiece, rfl⟩ := List.mem_map.mp hmem
  rw [String.toList_ofList] at hdot
  simpa using (of_mem_pieces hpiece hdot).2

/-- Backticks put no dot into a segment. -/
theorem dot_notMem_escape {segment : String} (h : '.' ∉ segment.toList) :
    '.' ∉ (escape reservedWords segment).toList := by
  unfold escape
  split
  · simpa using h
  · exact h

/-- There are no dots in the segments of a root. -/
theorem DotlessBase.dot_notMem_root (h : l.DotlessBase) {direction : Direction} {segment : String}
    (hmem : segment ∈ l.root direction) : '.' ∉ segment.toList := by
  have hbase : ∀ segment ∈ l.base.map (escape reservedWords), '.' ∉ segment.toList := by
    intro segment hmem
    obtain ⟨plain, hplain, rfl⟩ := List.mem_map.mp hmem
    exact dot_notMem_escape (h.2 plain hplain)
  cases direction with
  | imported => exact hbase segment hmem
  | exported =>
    rcases List.mem_append.mp hmem with hmem | hmem
    · exact hbase segment hmem
    · rw [List.mem_singleton.mp hmem]
      decide

/-- There are no dots in the segments that a file opens. -/
theorem dot_notMem_of_opens (hbase : l.DotlessBase) (hspelled : call.Spelled)
    (h : l.opens call = .ok segments) : ∀ segment ∈ segments, '.' ∉ segment.toList := by
  intro segment hmem
  cases call with
  | interface package name direction =>
    rcases packagePlace_eq_ok h with ⟨-, rfl⟩ | ⟨p, ns, packageName, hp, hns, hname, rfl⟩
    · exact hbase.dot_notMem_root hmem
    · simp only [List.mem_append, List.mem_cons, List.not_mem_nil, or_false] at hmem
      rcases hmem with hmem | rfl | rfl
      · exact hbase.dot_notMem_root hmem
      · exact ((hspelled.2 p hp).1.mark_notMem hns).1
      · exact ((hspelled.2 p hp).2.mark_notMem hname).1
  | world name direction =>
    cases direction with
    | imported =>
      obtain rfl := Except.ok.inj h
      exact hbase.dot_notMem_root hmem
    | exported =>
      obtain ⟨module, hmodule, heq⟩ := except_bind_eq_ok.mp h
      obtain rfl := Except.ok.inj heq
      rcases List.mem_append.mp hmem with hmem | hmem
      · exact hbase.dot_notMem_root hmem
      · rw [List.mem_singleton.mp hmem]
        exact (IsNameText.mark_notMem hspelled hmodule).1

/-- A file opens a package with the segments of the root in front. -/
theorem root_isPrefix_of_opens (h : l.opens call = .ok segments) :
    l.root call.direction <+: segments := by
  cases call with
  | interface package name direction =>
    rcases packagePlace_eq_ok h with ⟨-, rfl⟩ | ⟨_, _, _, -, -, -, rfl⟩
    · exact List.prefix_rfl
    · exact List.prefix_append _ _
  | world name direction =>
    cases direction with
    | imported =>
      obtain rfl := Except.ok.inj h
      exact List.prefix_rfl
    | exported =>
      obtain ⟨module, -, heq⟩ := except_bind_eq_ok.mp h
      obtain rfl := Except.ok.inj heq
      exact List.prefix_append _ _

/-- **The package tells the segments** that it is written from. -/
theorem segments_eq_of_package_eq (hbase : l.DotlessBase) (hspelled : call.Spelled)
    (hspelled' : call'.Spelled) (h : l.opens call = .ok segments)
    (h' : l.opens call' = .ok segments')
    (hpackage : ".".intercalate segments = ".".intercalate segments') : segments = segments' := by
  have hroot : ∀ direction, l.root direction ≠ [] := by
    intro direction hnil
    have hempty : l.base.map (escape reservedWords) = [] := by
      cases direction with
      | imported => exact hnil
      | exported => exact (List.append_eq_nil_iff.mp hnil).1
    exact hbase.1 (List.map_eq_nil_iff.mp hempty)
  have hne : ∀ {call segments}, l.opens call = .ok segments → segments ≠ [] := fun h hnil =>
    hroot _ (List.prefix_nil.mp (hnil ▸ root_isPrefix_of_opens h))
  exact eq_of_intercalate_eq rfl hpackage (hne h) (hne h')
    (dot_notMem_of_opens hbase hspelled h) (dot_notMem_of_opens hbase hspelled' h')

/-! ## Packages and containers -/

/-- A name over letters, digits and hyphens is none that a layout claims for
itself. -/
theorem raw_ne_of_isNameText {name raw : String} (h : IsNameText name) (hraw : '<' ∈ raw.toList) :
    name ≠ raw := by
  rintro rfl
  exact absurd (h '<' hraw) (by decide)

/-- **The segments that a file opens tell the direction.** -/
theorem isPrefix_iff_of_opens (hbase : l.PlainBase) (hspelled : call.Spelled)
    (hexports : l.HoldsExports claims) (h : l.place call = .ok location)
    (hopens : l.opens call = .ok segments) (hholds : l.Holds claims location call) :
    l.root .exported <+: segments ↔ call.direction = .exported := by
  refine ⟨fun hprefix => ?_, fun hexported => hexported ▸ root_isPrefix_of_opens hopens⟩
  cases hdirection : call.direction with
  | exported => rfl
  | imported =>
    cases call with
    | world name direction =>
      obtain rfl : direction = .imported := hdirection
      obtain rfl := Except.ok.inj hopens
      exact absurd hprefix.length_le (by simp [root])
    | interface package name direction =>
      obtain rfl : direction = .imported := hdirection
      rcases packagePlace_eq_ok hopens with ⟨-, rfl⟩ | ⟨p, ns, packageName, hp, hns, -, rfl⟩
      · exact absurd hprefix.length_le (by simp [root])
      · -- The namespace would be `exports`, which is claimed for another name.
        obtain ⟨rest, hrest⟩ := hprefix
        have hnsExports : ns = exportsSegment := by
          simp only [root, List.append_assoc, List.append_cancel_left_eq, List.cons_append,
            List.cons.injEq] at hrest
          exact hrest.1.symm
        have hspelledNs := (hspelled.2 p hp).1
        have hheld := hholds.ns hp hns
        rw [direction_of_place h] at hheld
        have hne := hexports.unescape_ne hbase hspelledNs.isPlain hns hheld
          (raw_ne_of_isNameText hspelledNs (by decide))
        rw [hnsExports] at hne
        exact absurd rfl hne

/-- Two calls for exported interfaces of one package, versions aside, whose
names agree as types. -/
def Call.SharesTrait : Call → Call → Prop
  | .interface package name .exported, .interface package' name' .exported =>
    packageOf package = packageOf package' ∧ identifierOf .type name = identifierOf .type name'
  | _, _ => False

/-- Calls that share a trait are for exported interfaces. -/
theorem Call.SharesTrait.exists_exported (hshares : call.SharesTrait call') :
    ∃ package name package' name', call = .interface package name .exported ∧
      call' = .interface package' name' .exported ∧ packageOf package = packageOf package' ∧
        identifierOf .type name = identifierOf .type name' := by
  unfold SharesTrait at hshares
  split at hshares
  · exact ⟨_, _, _, _, rfl, rfl, hshares⟩
  · exact hshares.elim

/-- Calls that share a trait are in one direction. -/
theorem Call.SharesTrait.direction_eq (hshares : call.SharesTrait call') :
    call.direction = call'.direction := by
  obtain ⟨_, _, _, _, rfl, rfl, -⟩ := hshares.exists_exported
  rfl

/-- Interfaces in one package have one place for their files, versions aside. -/
theorem packagePlace_eq_of_packageOf {package package' : Option PackageName} {direction : Direction}
    (h : packageOf package = packageOf package') :
    l.packagePlace package direction = l.packagePlace package' direction := by
  cases package with
  | none =>
    cases package' with
    | none => rfl
    | some p' => cases h
  | some p =>
    cases package' with
    | none => cases h
    | some p' =>
      obtain ⟨hns, hname⟩ := Prod.mk.inj (Option.some.inj h)
      simp only [packagePlace, hns, hname]

/-- Calls that share a trait are answered with one package and container. -/
theorem Call.SharesTrait.pair_eq (hshares : call.SharesTrait call')
    (h : l.place call = .ok location) (h' : l.place call' = .ok location') :
    location.package = location'.package ∧ location.container = location'.container := by
  obtain ⟨package, name, package', name', rfl, rfl, hpackageOf, hname⟩ := hshares.exists_exported
  obtain ⟨segments, hopens, hpackage⟩ := package_of_place h
  obtain ⟨segments', hopens', hpackage'⟩ := package_of_place h'
  have hsame : segments = segments' := Except.ok.inj (hopens.symm.trans
    ((packagePlace_eq_of_packageOf hpackageOf).trans hopens'))
  have hcontainer := container_of_place h
  have hcontainer' := container_of_place h'
  refine ⟨by rw [hpackage, hpackage', hsame], ?_⟩
  exact Except.ok.inj (hcontainer.symm.trans (hname.trans hcontainer'))

/-- A location of an interface is that of another name with the same file. -/
theorem path_eq_of_packagePlace {package package' : Option PackageName} {name name' : String}
    {direction : Direction} (h : l.interfacePlace package name direction = .ok location)
    (h' : l.interfacePlace package' name' direction = .ok location')
    (hpackage : l.packagePlace package direction = l.packagePlace package' direction)
    (hmodule : identifierOf .module name = identifierOf .module name') :
    location.path = location'.path := by
  obtain ⟨segments, module, hsegments, hidentifier, hdirectories, hfile⟩ :=
    parts_of_interfacePlace h
  obtain ⟨segments', module', hsegments', hidentifier', hdirectories', hfile'⟩ :=
    parts_of_interfacePlace h'
  obtain rfl := Except.ok.inj (hsegments.symm.trans (hpackage.trans hsegments'))
  obtain rfl := Except.ok.inj (hidentifier.symm.trans (hmodule.trans hidentifier'))
  rw [Location.path, Location.path, hdirectories, hdirectories', hfile, hfile']

/-- Names whose words start with letters share no trait without sharing a
path. -/
theorem Call.SharesTrait.path_eq (hshares : call.SharesTrait call')
    (h : l.place call = .ok location) (h' : l.place call' = .ok location')
    (hwit : IsWitName call.name) (hwit' : IsWitName call'.name) :
    location.path = location'.path := by
  obtain ⟨package, name, package', name', rfl, rfl, hpackageOf, hname⟩ := hshares.exists_exported
  have hcontainer := container_of_place h
  exact path_eq_of_packagePlace h h' (packagePlace_eq_of_packageOf hpackageOf)
    (identifierOf_module_eq_of_type hwit hwit' hcontainer (hname.symm.trans hcontainer))

/-- **An interface of the root and a world** claim different files in it. -/
theorem not_granted_beside_world {package : Option PackageName} {name name' module : String}
    {direction : Direction} (hspelled : IsNameText name)
    (h : l.interfacePlace package name direction = .ok location)
    (hroot : l.packagePlace package direction = .ok (l.root direction))
    (hgranted : l.Granted claims package name location)
    (hgranted' : l.WorldGranted claims name' direction)
    (hmodule : identifierOf .module name = .ok module) :
    identifierOf .module name' ≠ .ok module := by
  intro hmodule'
  obtain ⟨segments, _, hsegments, -, hdirectories, -⟩ := parts_of_interfacePlace h
  obtain rfl := Except.ok.inj (hroot.symm.trans hsegments)
  have hheld := hgranted.module hmodule
  rw [hdirectories] at hheld
  have hsame := Option.some.inj (hheld.symm.trans (hgranted' module hmodule'))
  exact raw_ne_of_isNameText hspelled (by simp) hsame

/-- **Imports with one package and container have one path.** -/
theorem path_eq_of_imported (hspelled : call.Spelled) (hspelled' : call'.Spelled)
    (himported : call.direction = .imported) (himported' : call'.direction = .imported)
    (h : l.place call = .ok location) (h' : l.place call' = .ok location')
    (hholds : l.Holds claims location call) (hholds' : l.Holds claims location' call')
    (hopens : l.opens call = l.opens call')
    (hcontainer : location.container = location'.container) : location.path = location'.path := by
  -- A package object is called like its file.
  have hmodule := container_of_place h
  have hmodule' := container_of_place h'
  rw [himported] at hmodule
  rw [himported', ← hcontainer] at hmodule'
  cases call with
  | interface package name direction =>
    obtain rfl : direction = .imported := himported
    cases call' with
    | interface package' name' direction' =>
      obtain rfl : direction' = .imported := himported'
      exact path_eq_of_packagePlace h h' hopens (hmodule.trans hmodule'.symm)
    | world name' direction' =>
      obtain rfl : direction' = .imported := himported'
      exact absurd hmodule'
        (not_granted_beside_world hspelled.1 h hopens hholds hholds' hmodule)
  | world name direction =>
    obtain rfl : direction = .imported := himported
    cases call' with
    | interface package' name' direction' =>
      obtain rfl : direction' = .imported := himported'
      exact absurd hmodule
        (not_granted_beside_world hspelled'.1 h' hopens.symm hholds' hholds hmodule')
    | world name' direction' =>
      obtain rfl : direction' = .imported := himported'
      obtain ⟨file, hfile, hdirectories, hname⟩ := parts_of_worldPlace h
      obtain ⟨file', hfile', hdirectories', hname'⟩ := parts_of_worldPlace h'
      obtain rfl := Except.ok.inj (hmodule.symm.trans hfile)
      obtain rfl := Except.ok.inj (hmodule'.symm.trans hfile')
      rw [Location.path, Location.path, hdirectories, hdirectories', hname, hname']

/-- **Exports with one package and container** have one path, or share a
trait. -/
theorem path_eq_or_sharesTrait_of_exported (hexported : call.direction = .exported)
    (hexported' : call'.direction = .exported) (h : l.place call = .ok location)
    (h' : l.place call' = .ok location') (hholds : l.Holds claims location call)
    (hholds' : l.Holds claims location' call') (hopens : l.opens call = .ok segments)
    (hopens' : l.opens call' = .ok segments)
    (hcontainer : location.container = location'.container) :
    location.path = location'.path ∨ call.SharesTrait call' := by
  have htype := container_of_place h
  have htype' := container_of_place h'
  rw [hexported] at htype
  rw [hexported', ← hcontainer] at htype'
  -- An interface opens as many segments as the root or two more, and a world one more.
  have hdepth : ∀ {package name module}, l.packagePlace package .exported = .ok segments →
      l.opens (.world name .exported) = .ok segments → identifierOf .module name = .ok module →
        False := by
    intro package name module hinterface hworld hmodule
    simp only [opens, hmodule, except_bind_eq_ok, Except.ok.injEq, exists_eq_left',
      except_pure_eq_ok] at hworld
    have hlength := congrArg List.length hworld
    rcases packagePlace_eq_ok hinterface with ⟨-, rfl⟩ | ⟨_, _, _, -, -, -, rfl⟩ <;>
      simp at hlength
  cases call with
  | interface package name direction =>
    obtain rfl : direction = .exported := hexported
    cases call' with
    | interface package' name' direction' =>
      obtain rfl : direction' = .exported := hexported'
      exact .inr ⟨Granted.packageOf_eq hholds hholds' (direction_of_interfacePlace h)
        (direction_of_interfacePlace h') hopens hopens', htype.trans htype'.symm⟩
    | world name' direction' =>
      obtain rfl : direction' = .exported := hexported'
      obtain ⟨_, hmodule, -⟩ := parts_of_worldPlace h'
      exact (hdepth hopens hopens' hmodule).elim
  | world name direction =>
    obtain rfl : direction = .exported := hexported
    obtain ⟨file, hfile, hdirectories, hname⟩ := parts_of_worldPlace h
    cases call' with
    | interface package' name' direction' =>
      obtain rfl : direction' = .exported := hexported'
      exact (hdepth hopens' hopens hfile).elim
    | world name' direction' =>
      obtain rfl : direction' = .exported := hexported'
      obtain ⟨file', hfile', hdirectories', hname'⟩ := parts_of_worldPlace h'
      simp only [opens, hfile, hfile', except_bind_eq_ok, Except.ok.injEq, exists_eq_left',
        except_pure_eq_ok] at hopens hopens'
      obtain rfl : file = file' := by
        simpa using hopens.trans hopens'.symm
      left
      rw [Location.path, Location.path, hdirectories, hdirectories', hname, hname']

/-! ## Full names -/

/-- A text is told apart at its last mark. -/
theorem eq_of_append_mark_eq {p : Char → Bool} {xs xs' ys ys' : List Char} {c c' : Char}
    (hc : p c = true) (hc' : p c' = true) (hys : ∀ d ∈ ys, p d = false)
    (hys' : ∀ d ∈ ys', p d = false) (h : xs ++ c :: ys = xs' ++ c' :: ys') :
    xs = xs' ∧ c = c' ∧ ys = ys' := by
  have hreverse := congrArg List.reverse h
  simp only [List.reverse_append, List.reverse_cons, List.append_assoc] at hreverse
  obtain ⟨hlast, hrest⟩ := eq_and_eq_of_append_eq (p := p) (by simpa using hys)
    (by simpa using hys') (by simpa using hc) (by simpa using hc') hreverse
  simp only [List.singleton_append, List.cons.injEq, List.reverse_inj] at hlast hrest
  exact ⟨hrest.2, hrest.1, hlast⟩

/-- There is no mark of a full name in the name of a container. -/
theorem containerOf_mark_notMem {name container : String} {direction : Direction}
    (h : IsNameText name) (hcontainer : containerOf name direction = .ok container) :
    '.' ∉ container.toList ∧ '#' ∉ container.toList := by
  cases direction <;> exact h.mark_notMem hcontainer

/-- **A full name tells the package, the container and the type.** -/
theorem pair_eq_of_memberPath_eq {name name' : String} (hspelled : IsNameText call.name)
    (hspelled' : IsNameText call'.name) (h : l.place call = .ok location)
    (h' : l.place call' = .ok location') (hname : '.' ∉ name.toList ∧ '#' ∉ name.toList)
    (hname' : '.' ∉ name'.toList ∧ '#' ∉ name'.toList)
    (hpath : location.memberPath name = location'.memberPath name') :
    location.package = location'.package ∧ location.container = location'.container ∧
      name = name' := by
  have hmarks : ∀ l : Location, ∀ name, ∃ mark, (mark = '.' ∨ mark = '#') ∧
      (l.memberPath name).toList
        = l.package.toList ++ '.' :: (l.container.toList ++ mark :: name.toList) := by
    intro l name
    unfold Location.memberPath
    cases l.direction
    · exact ⟨'.', .inl rfl, by simp⟩
    · exact ⟨'#', .inr rfl, by simp⟩
  obtain ⟨mark, hmark, hlist⟩ := hmarks location name
  obtain ⟨mark', hmark', hlist'⟩ := hmarks location' name'
  have hsame := congrArg String.toList hpath
  rw [hlist, hlist', ← List.cons_append, ← List.cons_append, ← List.append_assoc,
    ← List.append_assoc] at hsame
  -- The last mark is before the type, and the one before it before the container.
  have hplain : ∀ {text : String}, '.' ∉ text.toList ∧ '#' ∉ text.toList →
      ∀ d ∈ text.toList, (fun c => decide (c = '.' ∨ c = '#')) d = false := by
    intro text hmarks d hd
    have hdot : d ≠ '.' := fun heq => hmarks.1 (heq ▸ hd)
    have hhash : d ≠ '#' := fun heq => hmarks.2 (heq ▸ hd)
    simp [hdot, hhash]
  have hcontainer := containerOf_mark_notMem hspelled (container_of_place h)
  have hcontainer' := containerOf_mark_notMem hspelled' (container_of_place h')
  obtain ⟨hfront, -, hnames⟩ := eq_of_append_mark_eq (by simpa using hmark)
    (by simpa using hmark') (hplain hname) (hplain hname') hsame
  obtain ⟨hpackages, -, hcontainers⟩ := eq_of_append_mark_eq (by simp) (by simp)
    (hplain hcontainer) (hplain hcontainer') hfront
  exact ⟨String.toList_injective hpackages, String.toList_injective hcontainers,
    String.toList_injective hnames⟩

/-! ## Locations of a layout -/

/-- **Answers with one package and container** have one path, or share a
trait. -/
theorem Holds.path_eq_or_sharesTrait (hbase : l.PlainBase) (hdotless : l.DotlessBase)
    (hexports : l.HoldsExports claims) (hspelled : call.Spelled) (hspelled' : call'.Spelled)
    (h : l.place call = .ok location) (h' : l.place call' = .ok location')
    (hholds : l.Holds claims location call) (hholds' : l.Holds claims location' call')
    (hpackage : location.package = location'.package)
    (hcontainer : location.container = location'.container) :
    location.path = location'.path ∨ call.SharesTrait call' := by
  obtain ⟨segments, hopens, hwritten⟩ := package_of_place h
  obtain ⟨segments', hopens', hwritten'⟩ := package_of_place h'
  obtain rfl := segments_eq_of_package_eq hdotless hspelled hspelled' hopens hopens'
    (hwritten.symm.trans (hpackage.trans hwritten'))
  have hdirection := isPrefix_iff_of_opens hbase hspelled hexports h hopens hholds
  rw [isPrefix_iff_of_opens hbase hspelled' hexports h' hopens' hholds'] at hdirection
  cases hd : call.direction with
  | imported =>
    have hd' : call'.direction = .imported := by
      cases hd' : call'.direction with
      | imported => rfl
      | exported =>
        rw [hd, hd'] at hdirection
        cases hdirection.mp rfl
    exact .inl (path_eq_of_imported hspelled hspelled' hd hd' h h' hholds hholds'
      (hopens.trans hopens'.symm) hcontainer)
  | exported =>
    exact path_eq_or_sharesTrait_of_exported hd (hdirection.mpr hd) h h' hholds hholds' hopens
      hopens' hcontainer

/-- **Containers are told apart, but for traits.** Two locations of one layout
that have different paths have one package and one container exactly when they
are those of two exported interfaces of one package, versions aside, whose
names agree as types. Names whose words start with letters do not. Only then a
full name denotes a type of both, and it is the same type name in both. -/
theorem containers_eq_iff (o : Options) {before between : List Call} {call call' : Call}
    {location location' : Location} (h : (Layout.mk o.baseSegments).Answers before call location)
    (h' : (Layout.mk o.baseSegments).Answers (before ++ call :: between) call' location')
    (hspelled : call.Spelled) (hspelled' : call'.Spelled)
    (hpath : location.path ≠ location'.path) :
    (location.package = location'.package ∧ location.container = location'.container ↔
        call.SharesTrait call') ∧
      (IsWitName call.name → IsWitName call'.name → ¬ call.SharesTrait call') ∧
      ∀ name name' : String, '.' ∉ name.toList ∧ '#' ∉ name.toList →
        '.' ∉ name'.toList ∧ '#' ∉ name'.toList →
          (location.memberPath name = location'.memberPath name' ↔
            call.SharesTrait call' ∧ name = name') := by
  obtain ⟨hplace, hholds⟩ := h.holds between
  obtain ⟨hplace', hholds'⟩ := h'.holds []
  replace hholds := hholds.mono (claimsOf_isPrefix (before ++ call :: between) [call'])
  have hiff : location.package = location'.package ∧ location.container = location'.container ↔
      call.SharesTrait call' := by
    refine ⟨fun ⟨hpackage, hcontainer⟩ => ?_, fun hshares => hshares.pair_eq hplace hplace'⟩
    exact (hholds.path_eq_or_sharesTrait (fun _ hmem => Options.isPlainText_of_mem hmem)
      (dotlessBase_ofOptions o) (holdsExports_claimsOf _) hspelled hspelled' hplace hplace'
      hholds' hpackage hcontainer).resolve_left hpath
  refine ⟨hiff, fun hwit hwit' hshares => hpath (hshares.path_eq hplace hplace' hwit hwit'),
    fun name name' hname hname' => ⟨fun hmember => ?_, fun ⟨hshares, hnames⟩ => ?_⟩⟩
  · obtain ⟨hpackage, hcontainer, hnames⟩ := pair_eq_of_memberPath_eq hspelled.isNameText
      hspelled'.isNameText hplace hplace' hname hname' hmember
    exact ⟨hiff.mp ⟨hpackage, hcontainer⟩, hnames⟩
  · obtain ⟨hpackage, hcontainer⟩ := hiff.mpr hshares
    have hdirection := hshares.direction_eq
    rw [← direction_of_place hplace, ← direction_of_place hplace'] at hdirection
    rw [Location.memberPath, Location.memberPath, hpackage, hcontainer, hdirection, hnames]

/-- The exported interfaces `a-1` and `a1` of one package have files of their
own and share the trait `A1`. -/
theorem containers_eq_iff_digits :
    let l : Layout := ⟨Options.baseSegments {}⟩
    let call : Call := .interface (some ⟨"a", "b", none⟩) "a-1" .exported
    let call' : Call := .interface (some ⟨"a", "b", none⟩) "a1" .exported
    let location : Location := ⟨"componentmodel.exports.a.b", "A1",
      ["componentmodel", "exports", "a", "b"], "a_1.scala", .exported⟩
    let location' : Location := ⟨"componentmodel.exports.a.b", "A1",
      ["componentmodel", "exports", "a", "b"], "a1.scala", .exported⟩
    l.Answers [] call location ∧ l.Answers [call] call' location' ∧ call.Spelled ∧
      call'.Spelled ∧ location.path ≠ location'.path ∧ call.SharesTrait call' ∧
      (∀ name name', '.' ∉ name.toList ∧ '#' ∉ name.toList →
        '.' ∉ name'.toList ∧ '#' ∉ name'.toList →
          (location.memberPath name = location'.memberPath name' ↔ name = name')) := by
  intro l call call' location location'
  have h : l.Answers [] call location := rfl
  have h' : l.Answers [call] call' location' := rfl
  have hspelled : call.Spelled := by
    refine ⟨by decide, fun p hp => ?_⟩
    obtain rfl := Option.some.inj hp
    exact ⟨by decide, by decide⟩
  have hspelled' : call'.Spelled := ⟨by decide, hspelled.2⟩
  have hpath : location.path ≠ location'.path := by decide
  have hnext : l.Answers ([] ++ call :: []) call' location' := h'
  obtain ⟨hiff, -, hmember⟩ := containers_eq_iff {} h hnext hspelled hspelled' hpath
  have hshares : call.SharesTrait call' := hiff.mp ⟨rfl, rfl⟩
  exact ⟨h, h', hspelled, hspelled', hpath, hshares, fun name name' hname hname' => by
    rw [hmember name name' hname hname', and_iff_right hshares]⟩

/-- **Not every two files define containers of their own.** -/
theorem not_containers_apart :
    ¬ ∀ (calls : List Call) (call call' : Call) (location location' : Location),
      let l : Layout := ⟨Options.baseSegments {}⟩
      l.Answers calls call location → l.Answers (calls ++ [call]) call' location' →
        call.Spelled → call'.Spelled → location.path ≠ location'.path →
          (location.package, location.container) ≠ (location'.package, location'.container) := by
  intro hapart
  have hab : ∀ p : PackageName, some ⟨"a", "b", none⟩ = some p →
      IsNameText p.ns ∧ IsNameText p.name := by
    intro p hp
    obtain rfl := Option.some.inj hp
    exact ⟨by decide, by decide⟩
  exact hapart [] (.interface (some ⟨"a", "b", none⟩) "a-1" .exported)
    (.interface (some ⟨"a", "b", none⟩) "a1" .exported)
    ⟨"componentmodel.exports.a.b", "A1", ["componentmodel", "exports", "a", "b"], "a_1.scala",
      .exported⟩
    ⟨"componentmodel.exports.a.b", "A1", ["componentmodel", "exports", "a", "b"], "a1.scala",
      .exported⟩ rfl rfl ⟨by decide, hab⟩ ⟨by decide, hab⟩ (by decide) rfl

end Layout

end ComponentBindings
