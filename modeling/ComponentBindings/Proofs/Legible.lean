import ComponentBindings.Proofs.Containers
import ComponentBindings.Proofs.Outcome
import ComponentBindings.Proofs.Regions
import ComponentBindings.Proofs.Scopes

/-!
# Scopes that tell their regions

Claims are kept apart by their scopes, and a scope is a text. It is put together
from the segments of a package, from the path of a module, from the name of a
type below it and from the functions of that type, and nothing in the text says
which of these it was. If two regions had one scope, names that have nothing to
do with each other would collide.

No identifier has any of the marks in it that scopes are put together with, as
long as names are those of an interface definition (`Assignment.WitNamed`). So a
scope is read back mark by mark (`Assignment.Spells.region_eq`): a colon tells
the identities of a level, and slashes tell what is below a module. There the
path ends at the second dot, and what follows is the name of a type, with a
dollar sign for its companion, or the call of a function, with parentheses.
This gives back the texts that went in. They tell the interface only if no two are
called the same, and the type only if an interface lists no two of one name.
-/

namespace ComponentBindings

/-! ## Identifiers and segments -/

/-- A text without the marks that scopes are put together with. -/
def IsSegmentText (text : String) : Prop := ∀ c ∈ text.toList, c ≠ '.' ∧ c ≠ '/' ∧ c ≠ ':'

instance : DecidablePred IsSegmentText := fun text => List.decidableBAll _ text.toList

/-- **An identifier that can be read back** from a scope: without backticks it
is spelled with letters, digits and underscores, and tells where they belong. -/
structure IsLegible (identifier : String) : Prop where
  /-- It is spelled with letters, digits and underscores. -/
  spelled : ∀ c ∈ (unescape identifier).toList, isIdentifierPart c = true
  /-- The backticks are those of a reserved word. -/
  escaped : identifier = escape reservedWords (unescape identifier)

/-- The identifiers of names over letters, digits and hyphens can be read
back. -/
theorem IsNameText.isLegible {c : Convention} {name identifier : String} (h : IsNameText name)
    (hidentifier : identifierOf c name = .ok identifier) : IsLegible identifier := by
  obtain ⟨text, htext, rfl⟩ := except_map_eq_ok.mp hidentifier
  have hread := (h.isPlainText htext).unescape_escape
  exact ⟨by rw [hread]; exact h.of_convert htext, by rw [hread]⟩

namespace IsLegible

variable {identifier identifier' : String}

/-- There are no marks in an identifier. -/
theorem notMem (h : IsLegible identifier) {c : Char} (hc : isIdentifierPart c = false) :
    c ∉ (unescape identifier).toList := by
  intro hmem
  rw [h.spelled c hmem] at hc
  cases hc

/-- An identifier is a segment. -/
theorem isSegmentText (h : IsLegible identifier) : IsSegmentText (unescape identifier) := by
  intro c hc
  refine ⟨?_, ?_, ?_⟩ <;> rintro rfl <;> exact h.notMem rfl hc

/-- An identifier is told by what it is without backticks. -/
theorem eq_of_unescape_eq (h : IsLegible identifier) (h' : IsLegible identifier')
    (heq : unescape identifier = unescape identifier') : identifier = identifier' := by
  rw [h.escaped, h'.escaped, heq]

end IsLegible

/-- Segments of a package, of which there is one at least. -/
def IsLevel (segments : List String) : Prop :=
  segments ≠ [] ∧ ∀ segment ∈ segments, IsSegmentText segment

/-- A level below another one. -/
theorem IsLevel.append {segments rest : List String} (h : IsLevel segments)
    (hrest : ∀ segment ∈ rest, IsSegmentText segment) : IsLevel (segments ++ rest) := by
  refine ⟨by simp [h.1], fun segment hmem => ?_⟩
  exact (List.mem_append.mp hmem).elim (h.2 segment) (hrest segment)

/-- What is joined from segments has no slash and no colon. -/
theorem IsLevel.marks_notMem {segments : List String} (h : IsLevel segments) :
    '/' ∉ (".".intercalate segments).toList ∧ ':' ∉ (".".intercalate segments).toList := by
  rw [String.toList_intercalate]
  have hpart : ∀ c ∈ ['.'].intercalate (segments.map String.toList),
      c = '.' ∨ c ≠ '/' ∧ c ≠ ':' := by
    intro c hc
    rcases of_mem_intercalate hc with hdot | ⟨part, hpart, hc⟩
    · exact .inl (List.mem_singleton.mp hdot)
    · obtain ⟨segment, hsegment, rfl⟩ := List.mem_map.mp hpart
      exact .inr (h.2 segment hsegment c hc).2
  exact ⟨fun hc => by simpa using hpart _ hc, fun hc => by simpa using hpart _ hc⟩

/-- The scope of the identities of a level has a colon, and no slash either. -/
theorem IsLevel.identity_marks {segments : List String} (h : IsLevel segments) :
    '/' ∉ (".".intercalate segments ++ ":identity").toList ∧
      ':' ∈ (".".intercalate segments ++ ":identity").toList := by
  simpa using h.marks_notMem.1

/-- Levels are told by what they are joined to. -/
theorem IsLevel.eq_of_intercalate_eq {segments segments' : List String} (h : IsLevel segments)
    (h' : IsLevel segments') (heq : ".".intercalate segments = ".".intercalate segments') :
    segments = segments' :=
  ComponentBindings.eq_of_intercalate_eq rfl heq h.1 h'.1
    (fun segment hmem hdot => (h.2 segment hmem _ hdot).1 rfl)
    fun segment hmem hdot => (h'.2 segment hmem _ hdot).1 rfl

/-! ## Parts of types -/

namespace Part

/-- What a companion is told by. -/
def mark : Part → String
  | body | methodParams _ => ""
  | companion | staticParams _ | constructorParams _ => "$"

/-- The function whose parameters make up a part. -/
def call : Part → List String
  | body | companion => []
  | methodParams name | staticParams name => [unescape name ++ "()"]
  | constructorParams position => ["apply(" ++ toString position ++ ")"]

/-- The scope of a part, dot by dot. -/
theorem scope_eq (path type : String) (p : Part) :
    p.scope (path ++ "." ++ type) = ".".intercalate (path :: (type ++ p.mark) :: p.call) := by
  have hempty : type ++ "" = type := String.append_empty
  cases p with
  | body => rw [mark, hempty]; rfl
  | companion => exact String.append_assoc
  | methodParams name =>
    rw [mark, hempty]
    exact String.append_assoc
  | staticParams name =>
    show path ++ "." ++ type ++ "$" ++ "." ++ unescape name ++ "()"
      = path ++ "." ++ (type ++ "$") ++ "." ++ (unescape name ++ "()")
    simp only [String.append_assoc]
  | constructorParams position =>
    show path ++ "." ++ type ++ "$" ++ ("." ++ "apply(") ++ toString position ++ ")"
      = path ++ "." ++ (type ++ "$") ++ "." ++ ("apply(" ++ toString position ++ ")")
    simp only [String.append_assoc]

/-- A part whose function can be read back. -/
def Legible : Part → Prop
  | methodParams name | staticParams name => IsLegible name
  | body | companion | constructorParams _ => True

variable {p p' : Part}

/-- A position is written in digits. -/
theorem isDigit_of_mem_toString {position : Nat} {c : Char} (hc : c ∈ (toString position).toList) :
    c.isDigit = true := by
  rw [show toString position = position.repr from rfl, Nat.toList_repr] at hc
  exact Nat.isDigit_of_mem_toDigits (by decide) (by decide) hc

/-- A call to a function by its name is not one to a constructor, which has a
number in it. -/
theorem call_ne_apply (name : String) (position : Nat) :
    unescape name ++ "()" ≠ "apply(" ++ toString position ++ ")" := by
  intro heq
  have hlist : (unescape name).toList ++ ['('] = "apply(".toList ++ (toString position).toList := by
    have hclosed := congrArg String.toList heq
    rw [String.toList_append, String.toList_append, String.toList_append] at hclosed
    exact (List.append_left_inj [')']).mp (by simpa using hclosed)
  have hne : (toString position).toList ≠ [] := by
    rw [show toString position = position.repr from rfl, Nat.toList_repr]
    exact Nat.toDigits_ne_nil
  -- Both end in front of the last parenthesis, one with a digit.
  obtain ⟨front, digit, hdigits⟩ := ((toString position).toList.eq_nil_or_concat).resolve_left hne
  rw [List.concat_eq_append] at hdigits
  have hdigit : digit.isDigit = true := isDigit_of_mem_toString (by rw [hdigits]; simp)
  rw [hdigits, ← List.append_assoc] at hlist
  rw [← List.singleton_inj.mp (List.append_inj' hlist rfl).2] at hdigit
  cases hdigit

/-- **A part is told by its mark and its call.** -/
theorem eq_of_call_eq (h : p.Legible) (h' : p'.Legible) (hmark : p.mark = p'.mark)
    (hcall : p.call = p'.call) : p = p' := by
  cases p <;> cases p' <;>
    first
    | rfl
    | (simp [mark] at hmark; done)
    | (simp [call] at hcall; done)
    | skip
  case methodParams.methodParams name name' | staticParams.staticParams name name' =>
    rw [h.eq_of_unescape_eq h' ((String.append_left_inj _).mp (List.singleton_inj.mp hcall))]
  case staticParams.constructorParams name position =>
    exact absurd (List.singleton_inj.mp hcall) (call_ne_apply name position)
  case constructorParams.staticParams position name =>
    exact absurd (List.singleton_inj.mp hcall).symm (call_ne_apply name position)
  case constructorParams.constructorParams position position' =>
    have hnumber : position.repr = position'.repr := by
      have hsame := List.singleton_inj.mp hcall
      rwa [String.append_left_inj, String.append_right_inj] at hsame
    have hdigits : Nat.toDigits 10 position = Nat.toDigits 10 position' := by
      rw [← Nat.toList_repr, hnumber, Nat.toList_repr]
    congr 1
    calc position = Nat.ofDigitChars 10 (Nat.toDigits 10 position) 0 :=
          Nat.ofDigitChars_ten_toDigits.symm
      _ = Nat.ofDigitChars 10 (Nat.toDigits 10 position') 0 := by rw [hdigits]
      _ = position' := Nat.ofDigitChars_ten_toDigits

/-- **The pieces of a scope tell the type and the part.** -/
theorem eq_of_pieces_eq {type type' : String} (htype : '$' ∉ type.toList)
    (htype' : '$' ∉ type'.toList) (h : p.Legible) (h' : p'.Legible)
    (hpieces : (type ++ p.mark) :: p.call = (type' ++ p'.mark) :: p'.call) :
    type = type' ∧ p = p' := by
  obtain ⟨hhead, hcall⟩ := List.cons.inj hpieces
  have hmarks : ∀ q : Part, q.mark = "" ∨ q.mark = "$" := fun q => by cases q <;> simp [mark]
  have hlists := congrArg String.toList hhead
  rw [String.toList_append, String.toList_append] at hlists
  have hmark : p.mark = p'.mark := by
    have hcount := congrArg (List.count '$') hlists
    rw [List.count_append, List.count_append, List.count_eq_zero.mpr htype,
      List.count_eq_zero.mpr htype'] at hcount
    rcases hmarks p with hp | hp <;> rcases hmarks p' with hp' | hp' <;>
      rw [hp, hp'] at hcount ⊢ <;> exact absurd hcount (by decide)
  rw [hmark, String.append_left_inj] at hhead
  exact ⟨hhead, eq_of_call_eq h h' hmark hcall⟩

end Part

/-! ## Levels of a layout -/

namespace Layout

variable {l : Layout} {direction : Direction}

/-- A base whose segments are plain texts, and are so as segments of scopes. -/
structure LegibleBase (l : Layout) : Prop where
  /-- The base is a level. -/
  isLevel : IsLevel l.base
  /-- The segments are plain texts. -/
  plain : l.PlainBase

/-- The layout of a run has such a base. -/
theorem legibleBase_ofOptions (o : Options) : LegibleBase ⟨o.baseSegments⟩ where
  plain _ hmem := Options.isPlainText_of_mem hmem
  isLevel := by
    refine ⟨(dotlessBase_ofOptions o).1, fun segment hmem => ?_⟩
    intro c hc
    have hpart := (Options.passesAsSegment_of_mem hmem).isSegmentPart_or hc
    refine ⟨?_, ?_, ?_⟩ <;> rintro rfl <;> exact absurd hpart (by decide)

/-- A root is a level. -/
theorem LegibleBase.isLevel_root (h : l.LegibleBase) (direction : Direction) :
    IsLevel ((l.root direction).map unescape) := by
  rw [h.plain.map_root]
  refine h.isLevel.append fun segment hmem => ?_
  split at hmem
  · rw [List.mem_singleton.mp hmem]
    decide
  · cases hmem

/-- The segments of a package are a level. -/
theorem LegibleBase.isLevel_packagePlace (h : l.LegibleBase) {package : Option PackageName}
    {segments : List String}
    (hpackage : ∀ p, package = some p → IsNameText p.ns ∧ IsNameText p.name)
    (hplace : l.packagePlace package direction = .ok segments) :
    IsLevel (segments.map unescape) := by
  rcases packagePlace_eq_ok hplace with ⟨-, rfl⟩ | ⟨p, ns, name, hp, hns, hname, rfl⟩
  · exact h.isLevel_root direction
  · rw [List.map_append]
    refine (h.isLevel_root direction).append fun segment hmem => ?_
    simp only [List.map_cons, List.map_nil, List.mem_cons, List.not_mem_nil, or_false] at hmem
    rcases hmem with rfl | rfl
    · exact ((hpackage p hp).1.isLegible hns).isSegmentText
    · exact ((hpackage p hp).2.isLegible hname).isSegmentText

end Layout

/-! ## Names of an interface definition -/

namespace Graph

variable {g : Graph}

/-- **The types of an interface, and those of a world, have names of their
own.** -/
structure ListsApart (g : Graph) : Prop where
  /-- The types of an interface. -/
  interface : ∀ i ∈ g.interfaces, ∀ id ∈ i.types.map Prod.snd, ∀ id' ∈ i.types.map Prod.snd,
    ∀ raw, g.nameOf id = some raw → g.nameOf id' = some raw → id = id'
  /-- The types among the items of a world. -/
  world : ∀ w ∈ g.worlds, ∀ key id key' id', (key, .type id) ∈ w.imports ++ w.exports →
    (key', .type id') ∈ w.imports ++ w.exports →
    ∀ raw, g.nameOf id = some raw → g.nameOf id' = some raw → id = id'

/-- The functions of a resource are functions of the graph. -/
theorem hasFunction_of_resourceFunctions {id : Int} {fs : List Function} {f : Function}
    (hfunctions : g.resourceFunctions id = .ok fs) (hf : f ∈ fs) : g.HasFunction f := by
  obtain ⟨t, -, hfunctions⟩ := except_bind_eq_ok.mp hfunctions
  cases howner : t.owner with
  | none =>
    rw [howner] at hfunctions
    obtain rfl := Except.ok.inj hfunctions
    cases hf
  | some owner =>
    simp only [howner, except_bind_eq_ok, except_pure_eq_ok] at hfunctions
    obtain ⟨all, hall, rfl⟩ := hfunctions
    replace hf := List.mem_of_mem_filter hf
    cases owner with
    | interface j =>
      simp only [ownerFunctions, except_bind_eq_ok, except_pure_eq_ok] at hall
      obtain ⟨i, hi, rfl⟩ := hall
      obtain ⟨⟨key, f⟩, hentry, rfl⟩ := List.mem_map.mp hf
      exact .interface (mem_of_interface hi) hentry
    | world k =>
      simp only [ownerFunctions, except_bind_eq_ok, except_pure_eq_ok] at hall
      obtain ⟨w, hw, rfl⟩ := hall
      obtain ⟨⟨key, item⟩, hentry, hitem⟩ := List.mem_filterMap.mp hf
      cases item with
      | function f' =>
        obtain rfl := Option.some.inj hitem
        exact .world (mem_of_lookup hw) hentry
      | interface _ | type _ => cases hitem

/-- The package of an interface is one of the packages. -/
theorem exists_package_of_packageNameOf {j : Int} {p : PackageName}
    (h : g.packageNameOf j = .ok (some p)) : ∃ entry ∈ g.packages, entry.name = p := by
  obtain ⟨i, -, h⟩ := except_bind_eq_ok.mp h
  cases hpackage : i.package with
  | none =>
    rw [hpackage] at h
    cases h
  | some id =>
    simp only [hpackage, except_bind_eq_ok, except_pure_eq_ok, Option.some.injEq] at h
    obtain ⟨entry, hentry, hname⟩ := h
    exact ⟨entry, mem_of_lookup hentry, hname⟩

end Graph

namespace Assignment

variable {a : Assignment} {claims : Claims} {key key' : ModuleKey} {location location' : Location}
  {region region' : Region} {c : Claim}

/-- **The names are those of an interface definition**: hyphens between words
that start with letters. -/
structure WitNamed (a : Assignment) : Prop where
  /-- What interfaces are called. -/
  called : ∀ {j package name}, a.calledAs j = .ok (package, name) → IsWitName name
  /-- The namespaces and names of packages. -/
  package : ∀ p ∈ a.graph.packages, IsWitName p.name.ns ∧ IsWitName p.name.name
  /-- The names of worlds. -/
  world : ∀ w ∈ a.graph.worlds, IsWitName w.name
  /-- The names of types. -/
  type : ∀ t ∈ a.graph.types, ∀ raw, t.name = some raw → IsWitName raw
  /-- The names of functions. -/
  function : ∀ f, a.graph.HasFunction f → IsWitName f.name

/-- The package in which an interface is called something. -/
theorem packageNameOf_of_calledAs {j : Int} {package : Option PackageName} {name : String}
    (h : a.calledAs j = .ok (package, name)) : a.graph.packageNameOf j = .ok package := by
  simp only [calledAs, except_bind_eq_ok] at h
  obtain ⟨i, -, found, hfound, h⟩ := h
  split at h
  · rw [hfound, (Prod.mk.inj (Except.ok.inj h)).1]
  · cases h
  · cases h

namespace WitNamed

variable (h : a.WitNamed)

include h

/-- The names in a package are over letters, digits and hyphens. -/
theorem isNameText_of_packageNameOf {j : Int} {p : PackageName}
    (hpackage : a.graph.packageNameOf j = .ok (some p)) : IsNameText p.ns ∧ IsNameText p.name := by
  obtain ⟨entry, hentry, rfl⟩ := Graph.exists_package_of_packageNameOf hpackage
  exact ⟨(h.package entry hentry).1.1, (h.package entry hentry).2.1⟩

/-- All modules are named plainly. -/
theorem plainlyNamed (hmem : a.world ∈ a.graph.worlds) (key : ModuleKey) : a.PlainlyNamed key := by
  cases key with
  | interface j direction =>
    refine fun package name hcalled => ⟨(h.called hcalled).1.isPlain, ?_⟩
    rintro p rfl
    have hpackage := h.isNameText_of_packageNameOf (packageNameOf_of_calledAs hcalled)
    exact ⟨hpackage.1.isPlain, hpackage.2.isPlain⟩
  | world direction => exact (h.world _ hmem).1.isPlain

end WitNamed

/-- The functions that a module is to declare are functions of the graph. -/
theorem hasFunction_of_mem (hmem : a.world ∈ a.graph.worlds) {f : Function}
    (hf : f ∈ (a.contentAfter a.items key).functions) : a.graph.HasFunction f := by
  cases key with
  | interface j direction =>
    obtain ⟨⟨-, i, hi, hf⟩, -⟩ := mem_functions_interface.mp hf
    obtain ⟨⟨scalar, f⟩, hentry, rfl⟩ := List.mem_map.mp hf
    exact .interface (Graph.mem_of_interface hi) hentry
  | world direction =>
    obtain ⟨⟨scalar, hitem⟩, -⟩ := mem_functions_world.mp hf
    exact .world hmem (mem_imports_append_exports hitem)

/-- **The types that a module is to declare have names of their own.** -/
theorem eq_of_mem_types (hmem : a.world ∈ a.graph.worlds) (hlists : a.graph.ListsApart)
    {id id' : Int} {raw : String} (hid : id ∈ (a.contentAfter a.items key).types)
    (hid' : id' ∈ (a.contentAfter a.items key).types) (hraw : a.graph.nameOf id = some raw)
    (hraw' : a.graph.nameOf id' = some raw) : id = id' := by
  cases key with
  | interface j direction =>
    obtain ⟨-, i, hi, hid⟩ := mem_types_interface.mp hid
    obtain ⟨-, i', hi', hid'⟩ := mem_types_interface.mp hid'
    obtain rfl := Except.ok.inj (hi.symm.trans hi')
    exact hlists.interface i (Graph.mem_of_interface hi) id hid id' hid' raw hraw hraw'
  | world direction =>
    obtain ⟨⟨scalar, hitem⟩, -⟩ := mem_types_world.mp hid
    obtain ⟨⟨scalar', hitem'⟩, -⟩ := mem_types_world.mp hid'
    exact hlists.world _ hmem scalar id scalar' id' (mem_imports_append_exports hitem)
      (mem_imports_append_exports hitem') raw hraw hraw'

/-! ## The path of a module -/

/-- What is put at the end of the last part is put at the end of what the parts
are joined to. -/
theorem intercalate_concat_append (sep : String) (parts : List String) (part suffix : String) :
    sep.intercalate (parts ++ [part ++ suffix]) = sep.intercalate (parts ++ [part]) ++ suffix := by
  induction parts with
  | nil => simp
  | cons first parts ih =>
    cases parts with
    | nil => simp [String.append_assoc]
    | cons second parts =>
      simp only [List.cons_append, String.intercalate_cons_cons] at ih ⊢
      rw [ih, String.append_assoc, String.append_assoc, String.append_assoc]

/-- **The path of a module** has one dot in it, and a slash before that. -/
theorem Placed.exists_stem (hplaced : a.Placed claims key location) (hnames : a.WitNamed)
    (hmem : a.world ∈ a.graph.worlds) (hbase : a.layout.LegibleBase) :
    ∃ stem, location.path = stem ++ ".scala" ∧ '.' ∉ stem.toList ∧ '/' ∈ stem.toList := by
  obtain ⟨directories, file, ⟨hne, hdirectory⟩, hfile, hparts⟩ : ∃ directories file,
      IsLevel directories ∧ IsSegmentText file ∧
        location.parts = directories ++ [file ++ ".scala"] := by
    cases key with
    | interface j direction =>
      obtain ⟨package, name, hcalled, hplace⟩ := calledAs_of_interfacePlace hplaced.1
      obtain ⟨segments, module, hsegments, hmodule, hdirectories, hfile⟩ :=
        Layout.parts_of_interfacePlace hplace
      refine ⟨segments.map unescape, unescape module, hbase.isLevel_packagePlace ?_ hsegments,
        ((hnames.called hcalled).1.isLegible hmodule).isSegmentText, ?_⟩
      · rintro p rfl
        exact hnames.isNameText_of_packageNameOf (packageNameOf_of_calledAs hcalled)
      · rw [Location.parts, hdirectories, hfile]
    | world direction =>
      obtain ⟨module, hmodule, hdirectories, hfile⟩ := Layout.parts_of_worldPlace hplaced.1
      have hlevel : IsLevel ((a.layout.root direction).map unescape ++ [unescape module]) := by
        refine (hbase.isLevel_root direction).append fun segment hsegment => ?_
        rw [List.mem_singleton.mp hsegment]
        exact ((hnames.world _ hmem).1.isLegible hmodule).isSegmentText
      refine ⟨_, "package", hlevel, by decide, ?_⟩
      rw [Location.parts, hdirectories, hfile]
      rfl
  refine ⟨"/".intercalate (directories ++ [file]), ?_, ?_, ?_⟩
  · rw [← intercalate_concat_append, ← hparts]
    rfl
  · rw [String.toList_intercalate]
    intro hdot
    rcases of_mem_intercalate hdot with hslash | ⟨part, hpart, hdot⟩
    · exact absurd hslash (by decide)
    · obtain ⟨segment, hsegment, rfl⟩ := List.mem_map.mp hpart
      rcases List.mem_append.mp hsegment with hsegment | hsegment
      · exact (hdirectory segment hsegment _ hdot).1 rfl
      · rw [List.mem_singleton.mp hsegment] at hdot
        exact (hfile _ hdot).1 rfl
  · obtain ⟨first, rest, rfl⟩ := List.exists_cons_of_ne_nil hne
    obtain ⟨next, more, hmore⟩ := List.exists_cons_of_ne_nil (l := rest ++ [file]) (by simp)
    rw [List.cons_append, hmore, String.intercalate_cons_cons]
    simp

/-! ## Scopes of regions -/

/-- **A region below a module**, with the pieces of its scope that follow the
path of the module. -/
inductive Trails (a : Assignment) (claims : Claims) (key : ModuleKey) (location : Location) :
    Region → List String → Prop
  /-- The members of the module. -/
  | members : Trails a claims key location (.members key) []
  /-- The parameters of a function. -/
  | params {function : String} : IsLegible function →
      Trails a claims key location (.params key function) [unescape function ++ "()"]
  /-- A part of a type that holds its name. -/
  | part {id : Int} {raw type : String} {p : Part} : id ∈ (a.contentAfter a.items key).types →
    a.graph.nameOf id = some raw → claims.holder? location.path type = some raw →
    IsLegible type → p.Legible →
      Trails a claims key location (.part key id p) ((unescape type ++ p.mark) :: p.call)

/-- **How the scope of a region is spelled.** -/
inductive Spells (a : Assignment) (claims : Claims) : Region → String → Prop
  /-- A level, segment by segment. -/
  | level {segments : List String} : IsLevel segments →
      Spells a claims (.level segments) (".".intercalate segments)
  /-- The identities of a level. -/
  | identities {segments : List String} : IsLevel segments →
      Spells a claims (.identities segments) (".".intercalate segments ++ ":identity")
  /-- A region below a module, piece by piece. -/
  | module {key : ModuleKey} {location : Location} {region : Region} {pieces : List String} :
    a.Placed claims key location → a.Trails claims key location region pieces →
      Spells a claims region (".".intercalate (location.path :: pieces))

/-- The part of a type is told by a function whose name is that of an interface
definition. -/
theorem WitNamed.legible_of_fills (h : a.WitNamed) {t : TypeDef} {p : Part}
    {identifier member : String} (hfills : a.graph.Fills t p identifier member) : p.Legible := by
  cases hfills with
  | methodParam _ hfunctions hf _ hname _ _ | staticParam _ hfunctions hf _ hname _ _ =>
    exact (h.function _ (Graph.hasFunction_of_resourceFunctions hfunctions hf)).1.isLegible hname
  | field _ _ _ | case _ _ _ | label _ _ _ | flag _ _ _ | apply _ | unapply _ | drop _
    | method _ _ _ _ _ | constructor _ _ _ _ | constructorParam _ _ _ _ _ _
    | static _ _ _ _ _ => trivial

/-- The name of a type that is found. -/
theorem nameOf_eq {g : Graph} {id : Int} {t : TypeDef} (ht : g.typeDef id = .ok t) :
    g.nameOf id = t.name := by
  unfold Graph.nameOf
  rw [ht]
  rfl

/-- **The scope that something is registered in** is spelled as its region
says. -/
theorem Registers.spells (h : a.Registers claims region c) (hnames : a.WitNamed)
    (hmem : a.world ∈ a.graph.worlds) (hbase : a.layout.LegibleBase) :
    a.Spells claims region c.scope := by
  cases h with
  | exports => exact .level hbase.isLevel
  | ns direction hpackage hns | world direction hw hmodule =>
    exact .level (hbase.isLevel_root direction)
  | @package j p ns name direction hpackage hns hname =>
    refine .level ?_
    rw [List.map_append]
    refine (hbase.isLevel_root direction).append fun segment hsegment => ?_
    rw [List.mem_singleton.mp hsegment]
    exact ((hnames.isNameText_of_packageNameOf hpackage).1.isLegible hns).isSegmentText
  | file hcalled hplace hmodule =>
    refine .level (hbase.isLevel_packagePlace ?_ hplace)
    rintro p rfl
    exact hnames.isNameText_of_packageNameOf (packageNameOf_of_calledAs hcalled)
  | identity hcalled hplace hmodule =>
    refine .identities (hbase.isLevel_packagePlace ?_ hplace)
    rintro p rfl
    exact hnames.isNameText_of_packageNameOf (packageNameOf_of_calledAs hcalled)
  | type hplaced _ _ _ _ | function hplaced _ _ => exact .module hplaced .members
  | param hplaced hf hfunction hp hname =>
    have hlegible := (hnames.function _ (hasFunction_of_mem hmem hf)).1.isLegible hfunction
    rw [parameterScope, String.append_assoc]
    exact .module hplaced (.params hlegible)
  | part hplaced hid ht hraw htype hheld hfills =>
    rw [Part.scope_eq]
    have hlegible := (hnames.type _ (Graph.mem_of_typeDef ht) _ hraw).1.isLegible htype
    have hnamed := (nameOf_eq ht).trans hraw
    exact .module hplaced (.part hid hnamed hheld hlegible (hnames.legible_of_fills hfills))

/-- There are no dots in the pieces that follow a path. -/
theorem Trails.dot_notMem {pieces : List String} (h : a.Trails claims key location region pieces) :
    ∀ piece ∈ pieces, '.' ∉ piece.toList := by
  have hcalled : ∀ {name : String}, IsLegible name → '.' ∉ (unescape name ++ "()").toList := by
    intro name hlegible
    simpa using hlegible.notMem rfl
  cases h with
  | members => simp
  | params hlegible => simpa using hcalled hlegible
  | @part id raw type p _ _ _ htype hp =>
    have hpiece : '.' ∉ (unescape type ++ p.mark).toList := by
      cases p <;> simpa [Part.mark] using htype.notMem rfl
    have hcall : ∀ piece ∈ p.call, '.' ∉ piece.toList := by
      cases p with
      | body | companion => simp [Part.call]
      | methodParams name | staticParams name => simpa [Part.call] using hcalled hp
      | constructorParams position =>
        have hdigits : '.' ∉ (toString position).toList := fun hdot =>
          absurd (Part.isDigit_of_mem_toString hdot) (by decide)
        simpa [Part.call] using hdigits
    exact List.forall_mem_cons.mpr ⟨hpiece, hcall⟩

/-- A call of a function is not spelled like a type. -/
theorem call_ne_type (name : String) {type : String} (htype : IsLegible type) (p : Part) :
    unescape name ++ "()" ≠ unescape type ++ p.mark := by
  intro heq
  have hparen : '(' ∈ (unescape type ++ p.mark).toList := by
    rw [← heq]
    simp
  rw [String.toList_append] at hparen
  rcases List.mem_append.mp hparen with hparen | hparen
  · exact htype.notMem rfl hparen
  · cases p <;> simp [Part.mark] at hparen

/-- **The pieces that follow a path tell the region.** -/
theorem Trails.region_eq {pieces pieces' : List String} (hmem : a.world ∈ a.graph.worlds)
    (hlists : a.graph.ListsApart) (h : a.Trails claims key location region pieces)
    (h' : a.Trails claims key location region' pieces') (hpieces : pieces = pieces') :
    region = region' := by
  cases h with
  | members =>
    cases h' with
    | members => rfl
    | params _ | part _ _ _ _ _ => cases hpieces
  | @params name hlegible =>
    cases h' with
    | members => cases hpieces
    | params hlegible' =>
      have hcall := (String.append_left_inj _).mp (List.singleton_inj.mp hpieces)
      rw [hlegible.eq_of_unescape_eq hlegible' hcall]
    | part _ _ _ htype _ => exact absurd (List.cons.inj hpieces).1 (call_ne_type _ htype _)
  | @part id raw type p hid hraw hheld htype hp =>
    cases h' with
    | members => cases hpieces
    | params _ => exact absurd (List.cons.inj hpieces).1.symm (call_ne_type _ htype _)
    | part hid' hraw' hheld' htype' hp' =>
      obtain ⟨hsame, rfl⟩ :=
        Part.eq_of_pieces_eq (htype.notMem rfl) (htype'.notMem rfl) hp hp' hpieces
      -- One name holds the identifier, and one type of the module has that name.
      obtain rfl := htype.eq_of_unescape_eq htype' hsame
      obtain rfl := Option.some.inj (hheld.symm.trans hheld')
      rw [eq_of_mem_types hmem hlists hid hid' hraw hraw']

/-- Interfaces that are called apart are told by what they are called. -/
theorem CalledApart.key_eq (hapart : a.CalledApart) (hplaced : a.Placed claims key location)
    (hsame : a.SameCall key key') : key = key' := by
  cases key with
  | world direction => exact hsame.elim
  | interface j direction =>
    cases key' with
    | world direction' => exact hsame.elim
    | interface j' direction' =>
      obtain ⟨rfl, hcalled⟩ := hsame
      obtain ⟨package, name, hcall, -⟩ := calledAs_of_interfacePlace hplaced.1
      rw [hapart j j' _ hcall (hcalled.symm.trans hcall)]

/-- **The scope of a region below a module tells the path** of the module, and
the pieces. -/
theorem Placed.path_eq_of_scope_eq (hnames : a.WitNamed) (hmem : a.world ∈ a.graph.worlds)
    (hbase : a.layout.LegibleBase) (hplaced : a.Placed claims key location)
    (hplaced' : a.Placed claims key' location') {pieces pieces' : List String}
    (htrails : a.Trails claims key location region pieces)
    (htrails' : a.Trails claims key' location' region' pieces')
    (h : ".".intercalate (location.path :: pieces)
      = ".".intercalate (location'.path :: pieces')) :
    location.path = location'.path ∧ pieces = pieces' := by
  obtain ⟨stem, hstem, hdot, -⟩ := hplaced.exists_stem hnames hmem hbase
  obtain ⟨stem', hstem', hdot', -⟩ := hplaced'.exists_stem hnames hmem hbase
  have hread : ∀ (stem : String) (pieces : List String),
      ".".intercalate ((stem ++ ".scala") :: pieces)
        = ".".intercalate (stem :: "scala" :: pieces) := by
    intro stem pieces
    rw [String.intercalate_cons_cons, ← String.intercalate_cons_append, String.append_assoc]
    rfl
  rw [hstem, hstem', hread, hread] at h
  have hdots : ∀ {stem : String} {pieces : List String}, '.' ∉ stem.toList →
      (∀ piece ∈ pieces, '.' ∉ piece.toList) →
      ∀ piece ∈ stem :: "scala" :: pieces, '.' ∉ piece.toList := fun hstem hpieces =>
    List.forall_mem_cons.mpr ⟨hstem, List.forall_mem_cons.mpr ⟨by decide, hpieces⟩⟩
  have hparts := eq_of_intercalate_eq rfl h (by simp) (by simp) (hdots hdot htrails.dot_notMem)
    (hdots hdot' htrails'.dot_notMem)
  obtain ⟨rfl, hrest⟩ := List.cons.inj hparts
  exact ⟨hstem.trans hstem'.symm, (List.cons.inj hrest).2⟩

/-- There is a slash in the scope of a region below a module. -/
theorem Placed.slash_mem_scope (hnames : a.WitNamed) (hmem : a.world ∈ a.graph.worlds)
    (hbase : a.layout.LegibleBase) (hplaced : a.Placed claims key location)
    (pieces : List String) : '/' ∈ (".".intercalate (location.path :: pieces)).toList := by
  obtain ⟨stem, hstem, -, hslash⟩ := hplaced.exists_stem hnames hmem hbase
  have hpath : '/' ∈ location.path.toList := by
    rw [hstem, String.toList_append]
    exact List.mem_append_left _ hslash
  cases pieces with
  | nil => rwa [String.intercalate_singleton]
  | cons piece pieces =>
    rw [String.intercalate_cons_cons, String.append_assoc, String.toList_append]
    exact List.mem_append_left _ hpath

/-- **The spelling of a scope tells its region.** -/
theorem Spells.region_eq {scope scope' : String} (orderly : a.graph.Orderly)
    (hmem : a.world ∈ a.graph.worlds) (hbase : a.layout.LegibleBase)
    (hexports : a.layout.HoldsExports claims) (hnames : a.WitNamed) (hapart : a.CalledApart)
    (hlists : a.graph.ListsApart) (h : a.Spells claims region scope)
    (h' : a.Spells claims region' scope') (hscope : scope = scope') : region = region' := by
  have hslash : ∀ {key location} pieces, a.Placed claims key location →
      '/' ∈ (".".intercalate (location.path :: pieces)).toList :=
    fun pieces hplaced => hplaced.slash_mem_scope hnames hmem hbase pieces
  cases h with
  | level hlevel =>
    cases h' with
    | level hlevel' => rw [hlevel.eq_of_intercalate_eq hlevel' hscope]
    | identities hlevel' =>
      exact absurd (hscope ▸ hlevel'.identity_marks.2) hlevel.marks_notMem.2
    | module hplaced' _ => exact absurd (hscope ▸ hslash _ hplaced') hlevel.marks_notMem.1
  | identities hlevel =>
    cases h' with
    | level hlevel' => exact absurd (hscope ▸ hlevel.identity_marks.2) hlevel'.marks_notMem.2
    | identities hlevel' =>
      rw [hlevel.eq_of_intercalate_eq hlevel' ((String.append_left_inj _).mp hscope)]
    | module hplaced' _ => exact absurd (hscope ▸ hslash _ hplaced') hlevel.identity_marks.1
  | module hplaced htrails =>
    cases h' with
    | level hlevel' => exact absurd (hscope ▸ hslash _ hplaced) hlevel'.marks_notMem.1
    | identities hlevel' => exact absurd (hscope ▸ hslash _ hplaced) hlevel'.identity_marks.1
    | module hplaced' htrails' =>
      obtain ⟨hpath, hpieces⟩ :=
        hplaced.path_eq_of_scope_eq hnames hmem hbase hplaced' htrails htrails' hscope
      have hkey := (Placed.key_eq_or_sameCall orderly hbase.plain hexports hplaced hplaced'
        (hnames.plainlyNamed hmem _) (hnames.plainlyNamed hmem _) hpath).elim id
        (hapart.key_eq hplaced)
      subst hkey
      obtain rfl := hplaced.unique hplaced'
      exact htrails.region_eq hmem hlists htrails' hpieces

/-- **What is registered in one scope is registered in one region.** -/
theorem Registers.region_eq {c' : Claim} (orderly : a.graph.Orderly)
    (hmem : a.world ∈ a.graph.worlds) (hbase : a.layout.LegibleBase)
    (hexports : a.layout.HoldsExports claims) (hnames : a.WitNamed) (hapart : a.CalledApart)
    (hlists : a.graph.ListsApart) (h : a.Registers claims region c)
    (h' : a.Registers claims region' c') (hscope : c.scope = c'.scope) : region = region' :=
  (h.spells hnames hmem hbase).region_eq orderly hmem hbase hexports hnames hapart hlists
    (h'.spells hnames hmem hbase) hscope

end Assignment

end ComponentBindings
