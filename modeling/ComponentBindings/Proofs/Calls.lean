import ComponentBindings.Proofs.Words

/-!
# Asking a layout for locations

A layout is asked for many locations in the course of a run, and for the same
one over and over: where an owner declares its types is found out anew at
every reference, and the answers are compared. This module is about such a
sequence of calls. A call that was answered once is answered alike for good
and claims nothing new, whatever has been asked in the meantime; and the
answers tell the calls apart, so that a file belongs to one world or one
version of one interface in one direction.

Calls that fail are part of the sequence. The claims that they made before
the fault stay, so a failed call can make a later one fail, but it cannot
take anything back (`Layout.addsClaims_locate`). Everything else follows from
the claims that an answer leaves on record (`Layout.Holds`).
-/

namespace ComponentBindings

/-! ## Claims are only added -/

section AddsClaims

variable {α β : Type}

/-- The claims after a computation, a failed one included. -/
def claimsAfter (x : Naming α) (claims : Claims) : Claims :=
  match x claims with
  | .ok _ claims' => claims'
  | .error _ claims' => claims'

/-- **A computation that only adds claims**, also when it fails. -/
def AddsClaims (x : Naming α) : Prop := ∀ claims, claims <+: claimsAfter x claims

/-- The claims after a computation that succeeds. -/
theorem claimsAfter_of_ok {x : Naming α} {claims claims' : Claims} {a : α}
    (h : x claims = .ok a claims') : claimsAfter x claims = claims' := by
  rw [claimsAfter, h]

namespace AddsClaims

/-- A value is returned. -/
theorem pure {a : α} : AddsClaims (Pure.pure a : Naming α) := fun _ => List.prefix_rfl

/-- One step after another. -/
theorem bind {x : Naming α} {f : α → Naming β} (hx : AddsClaims x) (hf : ∀ a, AddsClaims (f a)) :
    AddsClaims (x >>= f) := by
  intro claims
  have hfirst := hx claims
  unfold claimsAfter at hfirst ⊢
  show claims <+: match EStateM.bind x f claims with
    | .ok _ claims' => claims'
    | .error _ claims' => claims'
  unfold EStateM.bind
  cases hrun : x claims with
  | error fault claims' =>
    rw [hrun] at hfirst
    exact hfirst
  | ok a claims' =>
    rw [hrun] at hfirst
    exact hfirst.trans (hf a claims')

/-- A claim is made, or refused. -/
theorem claim {scope identifier raw : String} :
    AddsClaims (ComponentBindings.claim scope identifier raw) := by
  intro claims
  unfold claimsAfter ComponentBindings.claim
  cases hregister : Claims.register claims scope identifier raw with
  | ok claims' => exact Claims.isPrefix_of_register hregister
  | error fault => exact List.prefix_rfl

/-- A name is converted. -/
theorem convert {c : Convention} {raw : String} : AddsClaims (ComponentBindings.convert c raw) := by
  intro claims
  unfold claimsAfter ComponentBindings.convert
  cases identifierOf c raw reservedWords <;> exact List.prefix_rfl

/-- A name is declared. -/
theorem declare {c : Convention} {raw scope : String} :
    AddsClaims (ComponentBindings.declare c raw scope) :=
  convert.bind fun _ => claim.bind fun _ => pure

end AddsClaims

end AddsClaims

namespace Layout

/-! ## Calls -/

/-- **What a layout is asked for.** -/
inductive Call where
  /-- The location of an interface. -/
  | interface (package : Option PackageName) (name : String) (direction : Direction)
  /-- The location of a world. -/
  | world (name : String) (direction : Direction)
  deriving DecidableEq

namespace Call

/-- The name of the interface or world. -/
def name : Call → String
  | interface _ name _ => name
  | world name _ => name

/-- The direction that is asked for. -/
def direction : Call → Direction
  | interface _ _ direction => direction
  | world _ direction => direction

/-- The names of the call are over letters, digits and hyphens. -/
def Spelled : Call → Prop
  | interface package name _ =>
    IsNameText name ∧ ∀ p, package = some p → IsNameText p.ns ∧ IsNameText p.name
  | world name _ => IsNameText name

/-- The package of the call has no empty version. No package name that has
been read has one (`PackageName.isPart_of_parse`). -/
def Versioned : Call → Prop
  | interface package _ _ => ∀ p, package = some p → p.version ≠ some ""
  | world _ _ => True

end Call

/-- The location that a call asks for. -/
def locate (l : Layout) : Call → Naming Location
  | .interface package name direction => l.interfaceLocation package name direction
  | .world name direction => l.worldLocation name direction

/-- The location that a call asks for, claims aside. -/
def place (l : Layout) : Call → Except Fault Location
  | .interface package name direction => l.interfacePlace package name direction
  | .world name direction => l.worldPlace name direction

/-- **The claims that an answer leaves on record.** -/
def Holds (l : Layout) (claims : Claims) (location : Location) : Call → Prop
  | .interface package name _ => l.Granted claims package name location
  | .world name direction => l.WorldGranted claims name direction

variable {l : Layout} {claims claims' : Claims} {call call' : Call} {location location' : Location}

/-- The claims of an answer are held after more claims. -/
theorem Holds.mono (h : l.Holds claims location call) (hmore : claims <+: claims') :
    l.Holds claims' location call := by
  cases call with
  | interface _ _ _ => exact Granted.mono h hmore
  | world _ _ => exact WorldGranted.mono h hmore

/-- **A call that is answered** is answered with its place, and the claims are
on record. -/
theorem locate_eq_ok (h : l.locate call claims = .ok location claims') :
    l.place call = .ok location ∧ claims <+: claims' ∧ l.Holds claims' location call := by
  cases call with
  | interface _ _ _ => exact interfaceLocation_eq_ok h
  | world _ _ => exact worldLocation_eq_ok h

/-- A call whose claims are on record is answered, and nothing is claimed. -/
theorem locate_of_holds (hplace : l.place call = .ok location)
    (hholds : l.Holds claims location call) : l.locate call claims = .ok location claims := by
  cases call with
  | interface _ _ _ => exact interfaceLocation_of_granted hplace hholds
  | world _ _ => exact worldLocation_of_granted hplace hholds

/-- An answer is for the direction that was asked for. -/
theorem direction_of_place (h : l.place call = .ok location) :
    location.direction = call.direction := by
  cases call with
  | interface _ _ _ => exact direction_of_interfacePlace h
  | world _ _ => exact direction_of_worldPlace h

/-- The container at a location is named after what is asked for. -/
theorem container_of_place (h : l.place call = .ok location) :
    containerOf call.name call.direction = .ok location.container := by
  cases call with
  | interface _ _ _ =>
    simp only [place, interfacePlace, except_bind_eq_ok, except_pure_eq_ok] at h
    obtain ⟨_, -, _, -, _, hcontainer, rfl⟩ := h
    exact hcontainer
  | world _ _ => exact container_of_worldPlace h

/-- **Asking for a location only adds claims.** -/
theorem addsClaims_locate (call : Call) : AddsClaims (l.locate call) := by
  have hcontainer : ∀ module name direction, AddsClaims (containerName module name direction) := by
    intro module name direction
    cases direction with
    | imported => exact .pure
    | exported => exact .convert
  cases call with
  | interface package name direction =>
    have hsegments : AddsClaims (l.packageSegments package direction) := by
      cases package with
      | none => exact .pure
      | some _ => exact AddsClaims.declare.bind fun _ => AddsClaims.declare.bind fun _ => .pure
    exact hsegments.bind fun _ => AddsClaims.declare.bind fun _ => AddsClaims.claim.bind fun _ =>
      (hcontainer _ _ _).bind fun _ => .pure
  | world name direction =>
    exact AddsClaims.convert.bind fun _ => AddsClaims.claim.bind fun _ =>
      (hcontainer _ _ _).bind fun _ => .pure

/-! ## Sequences of calls -/

/-- The claims of a layout after a sequence of calls, answered or not. -/
def claimsOf (l : Layout) (calls : List Call) : Claims :=
  calls.foldl (fun claims call => claimsAfter (l.locate call) claims)
    (claimsAfter (Layout.start l.base) [])

/-- **A call is answered** after a sequence of calls. -/
def Answers (l : Layout) (before : List Call) (call : Call) (location : Location) : Prop :=
  l.locate call (l.claimsOf before) = .ok location (l.claimsOf (before ++ [call]))

/-- The claims after one more call. -/
theorem claimsOf_snoc (before : List Call) :
    l.claimsOf (before ++ [call]) = claimsAfter (l.locate call) (l.claimsOf before) := by
  rw [claimsOf, List.foldl_append]
  rfl

/-- **More calls make more claims.** -/
theorem claimsOf_isPrefix (before calls : List Call) :
    l.claimsOf before <+: l.claimsOf (before ++ calls) := by
  induction calls using List.reverseRecOn with
  | nil => rw [List.append_nil]
  | append_singleton calls call ih =>
    rw [← List.append_assoc, claimsOf_snoc]
    exact ih.trans (addsClaims_locate call _)

/-- The root of the exports is held from the start. -/
theorem holdsExports_claimsOf (calls : List Call) : l.HoldsExports (l.claimsOf calls) := by
  refine Claims.holder?_of_isPrefix (claimsOf_isPrefix [] calls) ?_
  show Claims.holder? [⟨".".intercalate l.base, exportsSegment, "<" ++ exportsSegment ++ ">"⟩]
    (".".intercalate l.base) exportsSegment = _
  simp [Claims.holder?]

namespace Answers

variable {before : List Call}

/-- What an answer left on record is there after more calls. -/
theorem holds (h : l.Answers before call location) (calls : List Call) :
    l.place call = .ok location ∧ l.Holds (l.claimsOf (before ++ call :: calls)) location call := by
  obtain ⟨hplace, -, hholds⟩ := locate_eq_ok h
  refine ⟨hplace, hholds.mono ?_⟩
  simpa using claimsOf_isPrefix (before ++ [call]) calls

/-- **A call that was answered is answered alike** later on, and nothing is
claimed. -/
theorem again (h : l.Answers before call location) (between : List Call) :
    l.locate call (l.claimsOf (before ++ call :: between))
      = .ok location (l.claimsOf (before ++ call :: between)) := by
  obtain ⟨hplace, hholds⟩ := h.holds between
  exact locate_of_holds hplace hholds

end Answers

/-! ## Answers tell calls apart -/

/-- An interface is called plainly by names over letters, digits and hyphens. -/
theorem plainlyCalled {package : Option PackageName} {name : String} {direction : Direction}
    (h : (Call.interface package name direction).Spelled) : PlainlyCalled package name :=
  ⟨h.1.isPlain, fun p hp => (h.2 p hp).imp IsNameText.isPlain IsNameText.isPlain⟩

/-- There are no slashes in the parts of a location. -/
theorem slash_notMem_of_place (hspelled : call.Spelled) (hbase : l.PlainBase)
    (h : l.place call = .ok location) : ∀ part ∈ location.parts, '/' ∉ part.toList := by
  cases call with
  | interface package name direction => exact (plainlyCalled hspelled).slash_notMem hbase h
  | world name direction =>
    exact slash_notMem_of_worldPlace (IsNameText.isPlain hspelled) hbase h

/-- **The directories tell the direction.** -/
theorem isPrefix_iff_of_place (hspelled : call.Spelled) (hbase : l.PlainBase)
    (hexports : l.HoldsExports claims) (h : l.place call = .ok location)
    (hholds : l.Holds claims location call) :
    l.base ++ [exportsSegment] <+: location.segments ↔ call.direction = .exported := by
  cases call with
  | interface package name direction =>
    cases direction with
    | imported =>
      exact iff_of_false ((plainlyCalled hspelled).not_isPrefix hbase hexports h hholds) nofun
    | exported => exact iff_of_true (isPrefix_of_interfacePlace hbase h) rfl
  | world name direction =>
    cases direction with
    | imported =>
      exact iff_of_false (not_isPrefix_of_worldPlace (IsNameText.isPlain hspelled) hbase hexports h
        hholds) nofun
    | exported => exact iff_of_true (isPrefix_of_worldPlace hbase h) rfl

/-- What stands for a world in a claim tells its name. -/
theorem worldMark_injective {name name' : String}
    (h : "<world " ++ name ++ ">" = "<world " ++ name' ++ ">") : name = name' :=
  (String.append_right_inj _).mp ((String.append_left_inj _).mp h)

/-- **The claims tell worlds apart**: two of them that have one directory in one
direction are called the same. -/
theorem name_eq_of_worldPlace {name name' : String} {direction : Direction}
    (hplain : IsPlain name) (hplain' : IsPlain name')
    (h : l.worldPlace name direction = .ok location)
    (h' : l.worldPlace name' direction = .ok location')
    (hgranted : l.WorldGranted claims name direction)
    (hgranted' : l.WorldGranted claims name' direction)
    (hsegments : location.segments = location'.segments) : name = name' := by
  obtain ⟨module, hmodule, hdirectories, -⟩ := parts_of_worldPlace h
  obtain ⟨module', hmodule', hdirectories', -⟩ := parts_of_worldPlace h'
  rw [hdirectories, hdirectories', List.append_cancel_left_eq, List.singleton_inj] at hsegments
  obtain rfl := eq_of_unescape_eq hplain hplain' hmodule hmodule' hsegments
  have hholder := (hgranted module hmodule).symm.trans (hgranted' module hmodule')
  exact worldMark_injective (Option.some.inj hholder)

/-- **A path tells calls apart** that have left their claims on record: it is
that of one world, or of one version of one interface, in one direction. -/
theorem call_eq_of_path_eq (hspelled : call.Spelled) (hspelled' : call'.Spelled)
    (hversioned : call.Versioned) (hversioned' : call'.Versioned) (hbase : l.PlainBase)
    (hexports : l.HoldsExports claims) (h : l.place call = .ok location)
    (h' : l.place call' = .ok location') (hholds : l.Holds claims location call)
    (hholds' : l.Holds claims location' call') (hpath : location.path = location'.path) :
    call = call' := by
  obtain ⟨hsegments, hfile⟩ := Location.eq_of_path_eq hpath
    (slash_notMem_of_place hspelled hbase h) (slash_notMem_of_place hspelled' hbase h')
  have hdirection : call.direction = call'.direction := by
    have hiff := isPrefix_iff_of_place hspelled hbase hexports h hholds
    rw [hsegments, isPrefix_iff_of_place hspelled' hbase hexports h' hholds'] at hiff
    cases hd : call.direction <;> cases hd' : call'.direction <;> simp_all
  -- In one direction depths tell interfaces from worlds, and the claims do the rest.
  cases call with
  | interface package name direction =>
    cases call' with
    | interface package' name' direction' =>
      obtain rfl : direction = direction' := hdirection
      obtain ⟨rfl, rfl⟩ := (plainlyCalled hspelled).called_eq (plainlyCalled hspelled') h h' hholds
        hholds' hversioned hversioned' hsegments hfile
      rfl
    | world name' direction' =>
      obtain rfl : direction = direction' := hdirection
      exact absurd hsegments (segments_ne_of_interfacePlace h h')
  | world name direction =>
    cases call' with
    | interface package' name' direction' =>
      obtain rfl : direction = direction' := hdirection
      exact absurd hsegments.symm (segments_ne_of_interfacePlace h' h)
    | world name' direction' =>
      obtain rfl : direction = direction' := hdirection
      rw [name_eq_of_worldPlace (IsNameText.isPlain hspelled) (IsNameText.isPlain hspelled') h h'
        hholds hholds' hsegments]

/-- **Locations are stable, and a file belongs to one call.** A call that has
been answered is answered alike after any other calls, and claims nothing then.
No import is located below the root of the exports. And whatever is located at
the path of an earlier answer was the same call: for one world, or for one
version of one interface, in one direction. -/
theorem locations_stable_injective (o : Options) {before : List Call} (between : List Call)
    {call : Call} {location : Location}
    (h : (Layout.mk o.baseSegments).Answers before call location) :
    let l : Layout := ⟨o.baseSegments⟩
    l.locate call (l.claimsOf (before ++ call :: between))
        = .ok location (l.claimsOf (before ++ call :: between)) ∧
      (call.Spelled → call.direction = .imported →
        ¬ l.base ++ [exportsSegment] <+: location.segments) ∧
      ∀ call' location', l.Answers (before ++ call :: between) call' location' →
        call.Spelled → call'.Spelled → call.Versioned → call'.Versioned →
          location.path = location'.path → call = call' := by
  intro l
  have hbase : l.PlainBase := fun segment hmem => Options.isPlainText_of_mem hmem
  obtain ⟨hplace, hholds⟩ := h.holds between
  refine ⟨h.again between, ?_, ?_⟩
  · intro hspelled himported hprefix
    have hexported := (isPrefix_iff_of_place hspelled hbase (holdsExports_claimsOf _) hplace
      hholds).mp hprefix
    rw [himported] at hexported
    cases hexported
  · intro call' location' h' hspelled hspelled' hversioned hversioned' hpath
    obtain ⟨hplace', hholds'⟩ := h'.holds []
    -- Both answers are on record when the second has been given.
    have hmore : l.claimsOf (before ++ call :: between)
        <+: l.claimsOf (before ++ call :: between ++ [call']) := claimsOf_isPrefix _ _
    exact call_eq_of_path_eq hspelled hspelled' hversioned hversioned' hbase
      (holdsExports_claimsOf _) hplace hplace' (hholds.mono hmore) hholds' hpath

/-- The first version of an interface is located, the second is refused, and a
world is located beside it: the first is located again, outside the exports and
at a path of its own. -/
theorem locations_stable_injective_versions :
    let l : Layout := ⟨Options.baseSegments {}⟩
    let first : Call := .interface (some ⟨"a", "b", some "1.0"⟩) "api" .imported
    let second : Call := .interface (some ⟨"a", "b", some "2.0"⟩) "api" .imported
    let location : Location :=
      ⟨"componentmodel.a.b", "api", ["componentmodel", "a", "b"], "api.scala", .imported⟩
    let beside : Location :=
      ⟨"componentmodel", "b", ["componentmodel", "b"], "package.scala", .imported⟩
    l.Answers [] first location ∧ (∀ other, ¬ l.Answers [first] second other) ∧
      l.Answers [first, second] (.world "b" .imported) beside ∧
      l.locate first (l.claimsOf [first, second]) = .ok location (l.claimsOf [first, second]) ∧
      ¬ ["componentmodel", "exports"] <+: location.segments ∧ location.path ≠ beside.path := by
  intro l first second location beside
  have hfirst : l.Answers [] first location := rfl
  have hbeside : l.Answers [first, second] (.world "b" .imported) beside := rfl
  have hspelled : first.Spelled := by
    refine ⟨by decide, fun p hp => ?_⟩
    obtain rfl := Option.some.inj hp
    exact ⟨by decide, by decide⟩
  have hversioned : first.Versioned := by
    intro p hp
    obtain rfl := Option.some.inj hp
    decide
  obtain ⟨hagain, himported, hpaths⟩ :=
    locations_stable_injective {} [second] hfirst
  have hworld : (Call.world "b" .imported).Spelled := by
    show IsNameText "b"
    decide
  refine ⟨hfirst, ?_, hbeside, hagain, himported hspelled rfl, fun hpath => ?_⟩
  · intro other hother
    have hrefused : ∃ fault claims, l.locate second (l.claimsOf [first]) = .error fault claims :=
      ⟨_, _, rfl⟩
    obtain ⟨fault, claims, hfault⟩ := hrefused
    rw [Answers, hfault] at hother
    cases hother
  · exact absurd (hpaths _ _ hbeside hspelled hworld hversioned trivial hpath) nofun

end Layout

end ComponentBindings
