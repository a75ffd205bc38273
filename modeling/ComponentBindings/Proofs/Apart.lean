import ComponentBindings.Proofs.Returned

/-!
# Which modules share a location

Names are claimed as identifiers, escaped where they are reserved, and files
are named after identifiers without the backticks. Two identifiers that
differ by the backticks around them are therefore different claims to one
file. Where the backticks show elsewhere in a location, the locations are
still different: they show in the package a file opens, and in the name of a
package object. The name of a trait is made from other words, though, and two
of them can agree (`=->` is written `=_>` as a file and `` `=>` `` as a
trait, and `` `=->` `` is written `` `=_>` `` and `` `=>` ``).

That is the only way. Modules at one location are of one key, or they are the
export modules of two interfaces whose file names differ by backticks
(`Assignment.Finished.key_eq_or_shares`), as long as no two interfaces are
called the same.
-/

namespace ComponentBindings

/-! ## Backticks -/

/-- An identifier between backticks. -/
def quoted (identifier : String) : String := "\x60" ++ identifier ++ "\x60"

/-- An identifier has no backticks around it, or loses them. -/
theorem unescape_eq_or (x : String) : unescape x = x ∨ x = quoted (unescape x) := by
  unfold unescape
  split
  · next rest hrest =>
    split
    · next hlast =>
      right
      obtain ⟨inner, rfl⟩ := List.getLast?_eq_some_iff.mp hlast
      rw [← String.toList_inj, hrest]
      simp [quoted]
    · exact .inl rfl
  · exact .inl rfl

/-- **Identifiers that are equal without backticks** are equal or differ by
backticks. -/
theorem eq_or_quoted {x y : String} (h : unescape x = unescape y) :
    x = y ∨ x = quoted y ∨ y = quoted x := by
  rcases unescape_eq_or x with hx | hx <;> rcases unescape_eq_or y with hy | hy
  · exact .inl (hx.symm.trans (h.trans hy))
  · exact .inr (.inr (by rw [hy, ← h, hx]))
  · exact .inr (.inl (by rw [hx, h, hy]))
  · exact .inl (by rw [hx, hy, h])

/-- An identifier is no identifier between backticks of its own. -/
theorem ne_quoted (x : String) : x ≠ quoted x := by
  intro h
  have hlength := congrArg (fun s => s.toList.length) h
  simp only [quoted, String.toList_append, List.length_append] at hlength
  have htick : "\x60".toList.length = 1 := rfl
  omega

/-- What is put in front of a list and again behind it stands twice after
it. -/
theorem eq_cons_cons_of_cons_append_eq {α : Type} {c : α} {xs ys zs : List α}
    (h : c :: (xs ++ c :: ys) = xs ++ zs) : zs = c :: c :: ys := by
  induction xs with
  | nil => exact h.symm
  | cons x xs ih =>
    obtain ⟨rfl, h⟩ := List.cons.inj h
    exact ih h

/-- **Backticks show in front of a dot.** -/
theorem quoted_append_ne (x y z : String) : quoted x ++ "." ++ y ≠ x ++ "." ++ z := by
  intro h
  have hlist := congrArg String.toList h
  simp only [quoted, String.toList_append] at hlist
  have happend : '\x60' :: (x.toList ++ '\x60' :: '.' :: y.toList)
      = x.toList ++ '.' :: z.toList := by
    simpa using hlist
  have hdot := eq_cons_cons_of_cons_append_eq happend
  simp at hdot

/-- Two segments with a dot between them are determined by their text, once it
is known which backticks there can be around the first. -/
theorem eq_and_eq_of_unescape_eq {x y x' y' : String} (hx : unescape x = unescape x')
    (h : x ++ "." ++ y = x' ++ "." ++ y') : x = x' ∧ y = y' := by
  have hfirst : x = x' := by
    rcases eq_or_quoted hx with rfl | rfl | rfl
    · rfl
    · exact absurd h (quoted_append_ne _ _ _)
    · exact absurd h.symm (quoted_append_ne _ _ _)
  subst hfirst
  exact ⟨rfl, (String.append_right_inj _).mp h⟩

/-- Texts that are joined with the same in front of them are joined alike. -/
theorem intercalate_eq_of_append {sep : String} {xs ys zs : List String} (hy : ys ≠ [])
    (hz : zs ≠ []) (h : sep.intercalate (xs ++ ys) = sep.intercalate (xs ++ zs)) :
    sep.intercalate ys = sep.intercalate zs := by
  by_cases hx : xs = []
  · subst hx
    exact h
  · rw [String.intercalate_append_of_ne_nil hx hy, String.intercalate_append_of_ne_nil hx hz] at h
    exact (String.append_right_inj _).mp h

/-! ## Packages -/

/-- **The identity of an interface tells versions apart.** -/
theorem PackageName.version_eq_of_identity {p p' : PackageName} {name : String}
    (hns : p.ns = p'.ns) (hname : p.name = p'.name) (hversion : p.version ≠ some "")
    (hversion' : p'.version ≠ some "") (h : p.identity name = p'.identity name) : p = p' := by
  obtain ⟨ns, packageName, version⟩ := p
  obtain ⟨_, _, version'⟩ := p'
  obtain rfl : ns = _ := hns
  obtain rfl : packageName = _ := hname
  simp only [identity] at h
  have hpart := (String.append_right_inj _).mp h
  cases version with
  | none =>
    cases version' with
    | none => rfl
    | some text =>
      have htext : text ≠ "" := fun heq => hversion' (by rw [heq])
      simp [htext] at hpart
  | some text =>
    have htext : text ≠ "" := fun heq => hversion (by rw [heq])
    cases version' with
    | none => simp [htext] at hpart
    | some text' =>
      have htext' : text' ≠ "" := fun heq => hversion' (by rw [heq])
      simp only [htext, htext', if_false] at hpart
      rw [(String.append_right_inj _).mp hpart]

namespace Layout

variable {l : Layout} {claims : Claims} {package package' : Option PackageName}
  {name name' : String} {direction : Direction} {segments segments' : List String}
  {location location' : Location}

/-- The segments of a package are those of the root, and two more for its
names. -/
theorem packagePlace_eq_ok (h : l.packagePlace package direction = .ok segments) :
    (package = none ∧ segments = l.root direction) ∨
      ∃ p ns name, package = some p ∧ identifierOf .module p.ns = .ok ns ∧
        identifierOf .module p.name = .ok name ∧ segments = l.root direction ++ [ns, name] := by
  cases package with
  | none => exact .inl ⟨rfl, (Except.ok.inj h).symm⟩
  | some p =>
    simp only [packagePlace, except_bind_eq_ok, except_pure_eq_ok] at h
    obtain ⟨ns, hns, name, hname, rfl⟩ := h
    exact .inr ⟨p, ns, name, rfl, hns, hname, rfl⟩

/-- **Backticks show in the package that a file opens**, so that it determines
the segments. -/
theorem packagePlace_injective (h : l.packagePlace package direction = .ok segments)
    (h' : l.packagePlace package' direction = .ok segments')
    (hmap : segments.map unescape = segments'.map unescape)
    (hjoin : ".".intercalate segments = ".".intercalate segments') : segments = segments' := by
  have hlength := congrArg List.length hmap
  rcases packagePlace_eq_ok h with ⟨-, rfl⟩ | ⟨_, ns, name, -, -, -, rfl⟩ <;>
    rcases packagePlace_eq_ok h' with ⟨-, rfl⟩ | ⟨_, ns', name', -, -, -, rfl⟩
  · rfl
  · simp at hlength
  · simp at hlength
  · have hpair := intercalate_eq_of_append (by simp) (by simp) hjoin
    simp only [String.intercalate_cons_cons, String.intercalate_singleton] at hpair
    simp only [List.map_append, List.map_cons, List.map_nil, List.append_cancel_left_eq,
      List.cons.injEq, and_true] at hmap
    obtain ⟨rfl, rfl⟩ := eq_and_eq_of_unescape_eq hmap.1 hpair
    rfl

/-- What the segments of a package leave open is its version. -/
def packageOf : Option PackageName → Option (String × String) :=
  Option.map fun p => (p.ns, p.name)

/-- **The claims tell packages apart**, versions aside. -/
theorem Granted.packageOf_eq (hgranted : l.Granted claims package name location)
    (hgranted' : l.Granted claims package' name' location')
    (hdirection : location.direction = direction) (hdirection' : location'.direction = direction)
    (h : l.packagePlace package direction = .ok segments)
    (h' : l.packagePlace package' direction = .ok segments) :
    packageOf package = packageOf package' := by
  rcases packagePlace_eq_ok h with
      ⟨rfl, hroot⟩ | ⟨p, ns, packageName, rfl, hns, hname, hsegments⟩ <;>
    rcases packagePlace_eq_ok h' with
      ⟨rfl, hroot'⟩ | ⟨p', ns', packageName', rfl, hns', hname', hsegments'⟩
  · rfl
  · simp [hroot] at hsegments'
  · simp [hroot'] at hsegments
  · rw [hsegments, List.append_cancel_left_eq] at hsegments'
    simp only [List.cons.injEq, and_true] at hsegments'
    obtain ⟨rfl, rfl⟩ := hsegments'
    have hsame : some p.ns = some p'.ns := by
      rw [← hgranted.ns rfl hns, ← hgranted'.ns rfl hns', hdirection, hdirection']
    have hsame' : some p.name = some p'.name := by
      rw [← hgranted.packageName rfl hns hname, ← hgranted'.packageName rfl hns' hname', hdirection,
        hdirection']
    simp [packageOf, Option.some.inj hsame, Option.some.inj hsame']

/-- **The claims tell interfaces apart**: two of them that claim one
identifier in one package are called the same. -/
theorem Granted.called_eq (hgranted : l.Granted claims package name location)
    (hgranted' : l.Granted claims package' name' location')
    (hpackage : packageOf package = packageOf package')
    (hversion : ∀ p, package = some p → p.version ≠ some "")
    (hversion' : ∀ p, package' = some p → p.version ≠ some "")
    (hscope : location.segments = location'.segments) {module : String}
    (hmodule : identifierOf .module name = .ok module)
    (hmodule' : identifierOf .module name' = .ok module) : package = package' ∧ name = name' := by
  -- One identifier in one scope has one holder.
  have hname : some name = some name' := by
    rw [← hgranted.module hmodule, ← hgranted'.module hmodule', hscope]
  obtain rfl := Option.some.inj hname
  refine ⟨?_, rfl⟩
  have hidentity := hgranted.identity hmodule
  rw [hscope, hgranted'.identity hmodule'] at hidentity
  cases package with
  | none =>
    cases package' with
    | none => rfl
    | some p' => simp [packageOf] at hpackage
  | some p =>
    cases package' with
    | none => simp [packageOf] at hpackage
    | some p' =>
      simp only [packageOf, Option.map_some, Option.some.injEq, Prod.mk.injEq] at hpackage
      rw [PackageName.version_eq_of_identity hpackage.1 hpackage.2 (hversion p rfl)
        (hversion' p' rfl) (Option.some.inj hidentity).symm]

/-! ## Locations -/

/-- **In one direction interfaces and worlds are at different depths**: an
interface is as deep as the root or two segments deeper, and a world is one
segment deeper. -/
theorem segments_ne_of_interfacePlace (h : l.interfacePlace package name direction = .ok location)
    (h' : l.worldPlace name' direction = .ok location') :
    location.segments ≠ location'.segments := by
  obtain ⟨segments, _, hsegments, -, hdirectories, -⟩ := parts_of_interfacePlace h
  obtain ⟨_, -, hdirectories', -⟩ := parts_of_worldPlace h'
  intro hsame
  have hlength := congrArg List.length (hdirectories.symm.trans (hsame.trans hdirectories'))
  rcases packagePlace_eq_ok hsegments with ⟨-, rfl⟩ | ⟨_, _, _, -, -, -, rfl⟩ <;>
    simp at hlength

/-- An interface does not live where a world does. -/
theorem interfacePlace_ne_worldPlace {direction' : Direction}
    (h : l.interfacePlace package name direction = .ok location) :
    l.worldPlace name' direction' ≠ .ok location := by
  intro h'
  have hdirection := direction_of_interfacePlace h
  obtain rfl : direction' = direction := (direction_of_worldPlace h').symm.trans hdirection
  exact segments_ne_of_interfacePlace h h' rfl

/-- Two names whose modules are apart by backticks only: one file name is the
other between backticks, and the containers agree. -/
structure ByBackticks (name name' : String) : Prop where
  /-- The file names differ by backticks. -/
  module : ∃ module module', identifierOf .module name = .ok module ∧
    identifierOf .module name' = .ok module' ∧ (module = quoted module' ∨ module' = quoted module)
  /-- The traits are called the same. -/
  container : identifierOf .type name = identifierOf .type name'

/-- **Interfaces that share a location** are called the same, or their names
are apart by backticks only. -/
theorem called_eq_or_byBackticks (h : l.interfacePlace package name direction = .ok location)
    (h' : l.interfacePlace package' name' direction = .ok location)
    (hgranted : l.Granted claims package name location)
    (hgranted' : l.Granted claims package' name' location)
    (hversion : ∀ p, package = some p → p.version ≠ some "")
    (hversion' : ∀ p, package' = some p → p.version ≠ some "") :
    (package = package' ∧ name = name') ∨ (direction = .exported ∧
      packageOf package = packageOf package' ∧ ByBackticks name name') := by
  have hdirection := direction_of_interfacePlace h
  simp only [interfacePlace, except_bind_eq_ok, except_pure_eq_ok] at h h'
  obtain ⟨segments, hsegments, module, hmodule, container, hcontainer, hlocation⟩ := h
  obtain ⟨segments', hsegments', module', hmodule', container', hcontainer', hlocation'⟩ := h'
  have heq := hlocation.trans hlocation'.symm
  simp only [Location.mk.injEq, and_true] at heq
  obtain ⟨hjoin, rfl, hmap, hfile⟩ := heq
  obtain rfl := packagePlace_injective hsegments hsegments' hmap hjoin
  have hpackage := hgranted.packageOf_eq hgranted' hdirection hdirection hsegments hsegments'
  rcases eq_or_quoted ((String.append_left_inj _).mp hfile) with rfl | hquoted
  · exact .inl (hgranted.called_eq hgranted' hpackage hversion hversion' rfl hmodule hmodule')
  · cases direction with
    | imported =>
      -- The container is the identifier itself, with its backticks.
      obtain rfl : module = container := Except.ok.inj (hmodule.symm.trans hcontainer)
      obtain rfl : module' = module := Except.ok.inj (hmodule'.symm.trans hcontainer')
      exact absurd hquoted (by simp [ne_quoted])
    | exported =>
      exact .inr ⟨rfl, hpackage, ⟨module, module', hmodule, hmodule', hquoted⟩,
        hcontainer.trans hcontainer'.symm⟩

end Layout

namespace Assignment

variable {a : Assignment} {orderly : a.graph.Orderly} {s : Session} {j j' : Int}

/-- **No two interfaces are called the same.** -/
def CalledApart (a : Assignment) : Prop :=
  ∀ j j' called, a.calledAs j = .ok called → a.calledAs j' = .ok called → j = j'

/-- **The export modules of two interfaces share a location**: the packages
agree but for the version, and the names are apart by backticks only. -/
def SharesByBackticks (a : Assignment) (j j' : Int) : Prop :=
  ∃ package name package' name', a.calledAs j = .ok (package, name) ∧
    a.calledAs j' = .ok (package', name') ∧ Layout.packageOf package = Layout.packageOf package' ∧
    Layout.ByBackticks name name'

/-- The package in which an interface is called something has no empty
version. -/
theorem version_ne_of_calledAs (orderly : a.graph.Orderly) {package : Option PackageName}
    {name : String} (h : a.calledAs j = .ok (package, name)) :
    ∀ p, package = some p → p.version ≠ some "" := by
  rintro p rfl
  simp only [calledAs, except_bind_eq_ok] at h
  obtain ⟨i, hi, package, hpackage, h⟩ := h
  obtain rfl : package = some p := by
    split at h
    · exact (Prod.mk.inj (Except.ok.inj h)).1
    · cases h
    · cases h
  simp only [Graph.packageNameOf, except_bind_eq_ok] at hpackage
  obtain ⟨i', -, hpackage⟩ := hpackage
  split at hpackage
  · cases hpackage
  · simp only [except_bind_eq_ok, except_pure_eq_ok] at hpackage
    obtain ⟨entry, hentry, heq⟩ := hpackage
    rw [← Option.some.inj heq]
    exact orderly.version_ne hentry

/-- The module of an interface does not live where the module of a world
does. -/
theorem interfacePlace_ne_worldPlace {direction direction' : Direction} {location : Location}
    {name : String} (h : a.interfacePlace j direction = .ok location) :
    a.layout.worldPlace name direction' ≠ .ok location := by
  obtain ⟨_, _, -, hplace⟩ := calledAs_of_interfacePlace h
  exact Layout.interfacePlace_ne_worldPlace hplace

/-- **Modules at one location have one key**, or they are the export modules
of two interfaces that share it by backticks. -/
theorem Finished.key_eq_or_shares (h : a.Finished orderly s) (hapart : a.CalledApart)
    {m m' : Module} (hm : m ∈ s.modules) (hm' : m' ∈ s.modules)
    (hlocation : m.location = m'.location) :
    m.key = m'.key ∨ ∃ j j', m.key = .interface j .exported ∧ m'.key = .interface j' .exported ∧
      a.SharesByBackticks j j' := by
  have hplaced := h.progress.kept.placed m hm
  have hplaced' := h.progress.kept.placed m' hm'
  rw [hlocation] at hplaced
  generalize m.key = key at hplaced
  generalize m'.key = key' at hplaced'
  cases key with
  | world direction =>
    cases key' with
    | world direction' =>
      have hdirection := Layout.direction_of_worldPlace hplaced.1
      rw [Layout.direction_of_worldPlace hplaced'.1] at hdirection
      rw [hdirection]
      exact .inl rfl
    | interface j' direction' => exact absurd hplaced.1 (interfacePlace_ne_worldPlace hplaced'.1)
  | interface j direction =>
    cases key' with
    | world direction' => exact absurd hplaced'.1 (interfacePlace_ne_worldPlace hplaced.1)
    | interface j' direction' =>
      obtain ⟨hplace, ⟨package, name, hcalled, hgranted⟩, -⟩ := hplaced
      obtain ⟨hplace', ⟨package', name', hcalled', hgranted'⟩, -⟩ := hplaced'
      have hdirection := direction_of_interfacePlace hplace
      obtain rfl : direction = direction' :=
        hdirection.symm.trans (direction_of_interfacePlace hplace')
      rw [interfacePlace_of_calledAs hcalled] at hplace
      rw [interfacePlace_of_calledAs hcalled'] at hplace'
      -- Two interfaces at one location are called the same, or almost.
      rcases Layout.called_eq_or_byBackticks hplace hplace' hgranted hgranted'
        (version_ne_of_calledAs orderly hcalled) (version_ne_of_calledAs orderly hcalled')
        with ⟨rfl, rfl⟩ | ⟨rfl, hpackage, hnames⟩
      · rw [hapart j j' _ hcalled hcalled']
        exact .inl rfl
      · exact .inr ⟨j, j', rfl, rfl, package, name, package', name', hcalled, hcalled', hpackage,
          hnames⟩

end Assignment

end ComponentBindings
