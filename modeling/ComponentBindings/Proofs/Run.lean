import ComponentBindings.Proofs.Contents
import ComponentBindings.Proofs.LastLoop

/-!
# From the first module to the last

A run walks the items of the world and then the interfaces that have been
noted. The contents that its modules are to declare can be told beforehand
(`Assignment.contentAfter`): an interface module declares the types of the
interface, if it is the one of its two modules that does, and its functions,
if the world lists it in that direction; a world module declares the items
that have been walked. Each step keeps to that, and so does the whole run.

Interfaces that only wait for a module are the delicate part. A reference may
point into such a module long before it exists, and what speaks for the
reference in the meantime is the note. The last loop takes the notes off one
by one. It ends when no noted interface can still be taken, and since an
interface that cannot be taken has been, every note has been redeemed by then
(`Assignment.Finished`).
-/

namespace ComponentBindings

/-- **A session that another one redeems**: what is held in it is held there,
and what is open in it, or noted, has its module there. -/
structure Session.Within (s all : Session) : Prop where
  /-- What is held is held there. -/
  claims : s.claims.Within all.claims
  /-- What is open is open there. -/
  opened : s.opened ⊆ all.opened
  /-- What is noted has its module there. -/
  pending : ∀ j ∈ s.pending, .interface j .imported ∈ all.opened

/-- What a session has come from is redeemed with it. -/
theorem Session.Within.of_advances {s s' all : Session} (h : s'.Within all) (hs : s.Advances s') :
    s.Within all where
  claims hheld := h.claims (Claims.holder?_of_isPrefix hs.claims hheld)
  opened := List.Subset.trans hs.opened h.opened
  pending j hj := h.pending j (hs.pending hj)

namespace Assignment

variable {a : Assignment} {orderly : a.graph.Orderly} {granted : Int → Prop} {contents : Contents}
  {s s' : Session} {key : ModuleKey} {location : Location} {site : Site} {u : Unit}

/-- What has been asked for still has a module to come. -/
theorem Noted.advance {owner : TypeOwner} (h : a.Noted granted owner s) (hs : s.Advances s') :
    a.Noted granted owner s' :=
  h.mono hs.opened hs.pending

/-- An owner that was asked for: it will have a module, and its claims are
held. -/
structure Asked (a : Assignment) (granted : Int → Prop) (owner : TypeOwner) (s : Session) :
    Prop where
  /-- It will have a module. -/
  noted : a.Noted granted owner s
  /-- Its claims are held. -/
  held : a.Held s.claims owner

/-- What has been asked for stays so. -/
theorem Asked.advance {owner : TypeOwner} (h : a.Asked granted owner s) (hs : s.Advances s') :
    a.Asked granted owner s' :=
  ⟨h.noted.advance hs, h.held.mono hs.claims⟩

/-! ## Declarations -/

/-- Whatever is emitted leaves the modules alone. -/
theorem Kept.emit {κ α : Type} {v : Placement.View κ} {x : Emission α} {Q : κ → α → Prop} {b : α}
    (h : a.Kept orderly granted contents s)
    (hx : (a.placement orderly granted).Yields v x Q) (hrun : x s = .ok b s') :
    a.Kept orderly granted contents s' ∧ s.Advances s' ∧ ∀ k, v.fits s' k → Q k b := by
  obtain ⟨hcoherent, hgrows, hb⟩ := hx s b s' h.coherent hrun
  exact ⟨h.of_grows hgrows hcoherent, .of_grows hgrows, hb⟩

/-- Looking for an owner leaves the modules alone. -/
theorem Kept.locate {owner : TypeOwner} (h : a.Kept orderly granted contents s)
    (hrun : a.locate owner s = .ok location s') :
    a.Kept orderly granted contents s' ∧ s.Advances s' ∧ a.place owner = .ok location ∧
      a.Asked granted owner s' := by
  have hfollows := renderer_follows orderly granted location
  have hgrows := hfollows.grows hrun
  have hcoherent := h.coherent.of_tables hgrows (hfollows.references hrun)
    (hfollows.instantiations hrun) (hfollows.pending hrun)
  obtain ⟨hplace, hlocated⟩ := locate_eq_ok granted hrun
  exact ⟨h.of_grows hgrows hcoherent, .of_grows hgrows, hplace, hlocated.noted, hlocated.held⟩

/-- Claims for a location change nothing else. -/
theorem Kept.claimed (h : a.Kept orderly granted contents s) (hmore : s.claims <+: s'.claims)
    (hs' : s' = { s with claims := s'.claims }) :
    a.Kept orderly granted contents s' ∧ s.Advances s' := by
  rw [hs']
  exact ⟨h.of_claims hmore, .of_grows (.ofClaims hmore)⟩

/-- A type is declared in its module. -/
theorem Kept.generateType {id : Int} (h : a.Kept orderly granted contents s)
    (hplaced : a.Placed s.claims key location) (hsite : a.IsSite key location site)
    (hrun : a.generateType key location site id s = .ok u s') :
    a.Kept orderly granted (Function.update contents key ((contents key).addType id)) s' ∧
      s.Advances s' := by
  simp only [Assignment.generateType, bind_eq_ok, Emission.ofExcept_eq_ok] at hrun
  obtain ⟨t, _, ⟨ht, rfl⟩, d, s₁, hemit, hadd⟩ := hrun
  have hfollows := renderer_follows orderly granted location
  obtain ⟨h₁, hs₁, hd⟩ := h.emit (hfollows.emits_type site t) hemit
  obtain ⟨-, -, hheld⟩ := h.emit (hfollows.grants_type site t) hemit
  obtain ⟨h₂, hs₂⟩ := h₁.addType (hplaced.mono hs₁.claims) hsite ht hd hheld hadd
  exact ⟨h₂, hs₁.trans hs₂⟩

/-- A function is declared in its module, if it belongs to no resource. -/
theorem Kept.generateFunction {f : Function} (h : a.Kept orderly granted contents s)
    (hplaced : a.Placed s.claims key location) (hsite : a.IsSite key location site)
    (hrun : a.generateFunction key location site f s = .ok u s') :
    a.Kept orderly granted (Function.update contents key { contents key with
      functions := (contents key).functions ++ [f].filter Function.isFreestanding }) s' ∧
      s.Advances s' := by
  unfold Assignment.generateFunction at hrun
  cases hfree : f.isFreestanding with
  | true =>
    simp only [hfree, if_true, bind_eq_ok] at hrun
    obtain ⟨d, s₁, hemit, hadd⟩ := hrun
    have hfollows := renderer_follows orderly granted location
    obtain ⟨h₁, hs₁, hd⟩ := h.emit (hfollows.emits_function site f) hemit
    obtain ⟨-, -, hheld⟩ := h.emit (hfollows.grants_function site f) hemit
    obtain ⟨h₂, hs₂⟩ := h₁.addFunction (hplaced.mono hs₁.claims) hsite hd hheld hadd
    simp only [List.filter_cons, hfree, if_true, List.filter_nil]
    exact ⟨h₂, hs₁.trans hs₂⟩
  | false =>
    simp only [hfree, Bool.false_eq_true, if_false, pure_eq_ok] at hrun
    obtain ⟨-, rfl⟩ := hrun
    simp only [List.filter_cons, hfree, Bool.false_eq_true, if_false, List.filter_nil,
      List.append_nil, Function.update_eq_self]
    exact ⟨h, .refl s⟩

/-- **The types of an interface are declared in its module** in order, if it
is where they belong. -/
theorem Kept.generateTypes {i : Interface} {j : Int} {direction : Direction}
    (h : a.Kept orderly granted contents s)
    (hplaced : a.Placed s.claims (.interface j direction) location)
    (hsite : a.IsSite (.interface j direction) location site)
    (hrun : a.generateTypes i j (.interface j direction) location site s = .ok u s') :
    a.Kept orderly granted (Function.update contents (.interface j direction)
      { contents (.interface j direction) with
        types := (contents (.interface j direction)).types ++
          if a.directionOf j = direction then i.types.map Prod.snd else [] }) s' ∧
      s.Advances s' := by
  unfold Assignment.generateTypes at hrun
  obtain ⟨found, s₁, hlocate, hrun⟩ := bind_eq_ok.mp hrun
  obtain ⟨h₁, hs₁, hplace, -⟩ := h.locate hlocate
  have hwhere : found = location ↔ a.directionOf j = direction := by
    constructor
    · rintro rfl
      exact (direction_of_interfacePlace hplace).symm.trans
        (direction_of_interfacePlace hplaced.1)
    · rintro rfl
      exact Except.ok.inj (hplace.symm.trans hplaced.1)
  by_cases hdirection : a.directionOf j = direction
  · rw [if_pos (hwhere.mpr hdirection)] at hrun
    rw [if_pos hdirection]
    -- What the types walked so far are, the module holds behind what it had.
    have hloop := forM_keeps (I := fun done s₂ =>
      a.Kept orderly granted (Function.update contents (.interface j direction)
        { contents (.interface j direction) with
          types := (contents (.interface j direction)).types ++ done.map Prod.snd }) s₂ ∧
        s₁.Advances s₂) ?_ ⟨?_, .refl s₁⟩ hrun
    · exact ⟨hloop.1, hs₁.trans hloop.2⟩
    · rintro done ⟨_, id⟩ s₂ _ s₃ - ⟨h₂, hs₂⟩ hstep
      obtain ⟨h₃, hs₃⟩ := h₂.generateType (hplaced.mono (hs₁.trans hs₂).claims) hsite hstep
      refine ⟨?_, hs₂.trans hs₃⟩
      simpa [Content.addType] using h₃
    · simpa using h₁
  · rw [if_neg (mt hwhere.mp hdirection)] at hrun
    obtain ⟨-, rfl⟩ := pure_eq_ok.mp hrun
    rw [if_neg hdirection, List.append_nil]
    simp only [Function.update_eq_self]
    exact ⟨h₁, hs₁⟩

/-- The functions of an interface are declared in its module in order. -/
theorem Kept.generateFunctions {functions : List (Scalar × Function)}
    (h : a.Kept orderly granted contents s) (hplaced : a.Placed s.claims key location)
    (hsite : a.IsSite key location site)
    (hrun : (functions.forM fun (_, f) => a.generateFunction key location site f) s = .ok u s') :
    a.Kept orderly granted (Function.update contents key { contents key with
      functions := (contents key).functions ++
        (functions.map Prod.snd).filter Function.isFreestanding }) s' ∧ s.Advances s' := by
  refine forM_keeps (I := fun done s₁ =>
    a.Kept orderly granted (Function.update contents key { contents key with
      functions := (contents key).functions ++
        (done.map Prod.snd).filter Function.isFreestanding }) s₁ ∧ s.Advances s₁)
    ?_ ⟨?_, .refl s⟩ hrun
  · rintro done ⟨_, f⟩ s₁ _ s₂ - ⟨h₁, hs₁⟩ hstep
    obtain ⟨h₂, hs₂⟩ := h₁.generateFunction (hplaced.mono hs₁.claims) hsite hstep
    refine ⟨?_, hs₁.trans hs₂⟩
    simpa using h₂
  · simpa using h

/-! ## Items of the world -/

/-- What the module of an interface in one direction is to declare. -/
def interfaceContent (a : Assignment) (j : Int) (direction : Direction) : Content :=
  match a.graph.interface j with
  | .ok i => {
      types := if a.directionOf j = direction then i.types.map Prod.snd else []
      functions := if a.lists direction j then
        (i.functions.map Prod.snd).filter Function.isFreestanding else [] }
  | .error _ => {}

/-- **The module of an interface comes to hold what it is to declare.** -/
theorem Kept.generateInterface {j : Int} {listed : Option Scalar} {direction : Direction}
    (h : a.Kept orderly granted contents s) (hlisted : a.ListedAs j direction listed)
    (hcontents : contents (.interface j direction) = a.interfaceContent j direction)
    (hrun : a.generateInterface j listed direction (!a.lists direction j) s = .ok u s') :
    a.Kept orderly granted contents s' ∧ s.Advances s' ∧
      .interface j direction ∈ s'.opened := by
  unfold Assignment.generateInterface at hrun
  obtain ⟨_, _, hget, hrun⟩ := bind_eq_ok.mp hrun
  obtain ⟨rfl, rfl⟩ := get_eq_ok.mp hget
  split at hrun
  · next hopen =>
    obtain ⟨-, rfl⟩ := pure_eq_ok.mp hrun
    exact ⟨h, .refl s, by simpa [Session.opened] using hopen⟩
  · next hopen =>
    have hclosed : .interface j direction ∉ s.opened := by simpa [Session.opened] using hopen
    simp only [bind_eq_ok, Emission.ofExcept_eq_ok] at hrun
    obtain ⟨i, _, ⟨hi, rfl⟩, location, s₁, hlocation, identity, _, ⟨hidentity, rfl⟩,
      _, _, ⟨-, rfl⟩, _, s₂, hopened, _, s₃, htypes, hrest⟩ := hrun
    obtain ⟨hplace, hmore, hs₁, hgranted⟩ := interfaceLocation_eq_ok hlocation
    obtain ⟨hkept, hadvances⟩ := h.claimed hmore hs₁
    -- The module is opened empty, and then filled with its types and functions.
    have h₁ : a.Kept orderly granted (Function.update contents (.interface j direction) {}) s₁ := by
      refine hkept.congr fun key hkey => ?_
      rw [hs₁] at hkey
      have hne : key ≠ .interface j direction := by
        rintro rfl
        exact hclosed hkey
      rw [Function.update_of_ne hne]
    have hplaced : a.Placed s₁.claims (.interface j direction) location :=
      ⟨hplace, hgranted, listed, hlisted⟩
    have hsite : a.IsSite (.interface j direction) location ⟨direction, identity, location.path⟩ :=
      ⟨rfl, rfl, listed, hlisted, hidentity⟩
    obtain ⟨h₂, hkey, hs₂⟩ := h₁.openModule (fun _ => Function.update_self ..) hplaced hopened
    obtain ⟨h₃, hs₃⟩ := h₂.generateTypes (hplaced.mono hs₂.claims) hsite htypes
    have hadvances₃ := (hadvances.trans hs₂).trans hs₃
    cases hlists : a.lists direction j with
    | true =>
      simp only [hlists, Bool.not_true, Bool.false_eq_true, if_false] at hrest
      obtain ⟨h₄, hs₄⟩ := h₃.generateFunctions (hplaced.mono (hs₂.trans hs₃).claims) hsite hrest
      refine ⟨h₄.congr fun key _ => ?_, hadvances₃.trans hs₄, hs₄.opened (hs₃.opened hkey)⟩
      by_cases heq : key = .interface j direction
      · subst heq
        simp [hcontents, interfaceContent, hi, hlists]
      · simp [Function.update_of_ne heq]
    | false =>
      simp only [hlists, Bool.not_false, if_true, pure_eq_ok] at hrest
      obtain ⟨-, rfl⟩ := hrest
      refine ⟨h₃.congr fun key _ => ?_, hadvances₃, hs₃.opened hkey⟩
      by_cases heq : key = .interface j direction
      · subst heq
        simp [hcontents, interfaceContent, hi, hlists]
      · simp [Function.update_of_ne heq]

/-- The module of the world is opened if need be. -/
theorem Kept.worldModule {direction : Direction} (h : a.Kept orderly granted contents s)
    (hcontents : .world direction ∉ s.opened → contents (.world direction) = {})
    (hrun : a.worldModule direction s = .ok location s') :
    a.Kept orderly granted contents s' ∧ s.Advances s' ∧ .world direction ∈ s'.opened ∧
      a.Placed s'.claims (.world direction) location := by
  simp only [Assignment.worldModule, bind_eq_ok, pure_eq_ok] at hrun
  obtain ⟨_, s₁, hlocation, _, _, hopened, rfl, rfl⟩ := hrun
  obtain ⟨hplace, hmore, hs₁, hgranted⟩ := worldLocation_eq_ok hlocation
  obtain ⟨h₁, hadvances⟩ := h.claimed hmore hs₁
  have hplaced : a.Placed s₁.claims (.world direction) _ := ⟨hplace, hgranted⟩
  obtain ⟨h₂, hkey, hs₂⟩ := h₁.openModule (fun hk => hcontents fun hk' => hk (hadvances.opened hk'))
    hplaced hopened
  exact ⟨h₂, hadvances.trans hs₂, hkey, hplaced.mono hs₂.claims⟩

/-- Whether a type is declared in the module of the world for a direction: a
type without an owner is, and one whose owner declares its types there. -/
def declaresHere (a : Assignment) (direction : Direction) (id : Int) : Bool :=
  match a.graph.typeDef id with
  | .ok t => t.owner.elim true fun owner =>
      (a.place owner).toOption = (a.layout.worldPlace a.world.name direction).toOption
  | .error _ => false

/-- The types that an item adds to the module of the world. -/
def typesOfItem (a : Assignment) (direction : Direction) :
    Direction × Scalar × WorldItem → List Int
  | (itemDirection, _, .type id) =>
    if itemDirection = direction ∧ a.declaresHere direction id then [id] else []
  | _ => []

/-- The functions that an item adds to the module of the world. -/
def functionsOfItem (direction : Direction) : Direction × Scalar × WorldItem → List Function
  | (itemDirection, _, .function f) =>
    if itemDirection = direction then [f].filter Function.isFreestanding else []
  | _ => []

/-- **What each module is to declare** when some items of the world have been
walked. -/
def contentAfter (a : Assignment) (items : List (Direction × Scalar × WorldItem)) : Contents
  | .interface j direction => a.interfaceContent j direction
  | .world direction =>
    ⟨items.flatMap (a.typesOfItem direction), items.flatMap (functionsOfItem direction)⟩

/-- Whether a type is declared in the module of the world is found out as the
place of its owner says. -/
theorem eq_declaresHere {t : TypeDef} {id : Int} {direction : Direction} {b : Bool}
    (ht : a.graph.typeDef id = .ok t) (hrun : a.declaresInWorld t direction s = .ok b s') :
    b = a.declaresHere direction id := by
  unfold Assignment.declaresInWorld at hrun
  unfold declaresHere
  rw [ht]
  simp only
  cases howner : t.owner with
  | none =>
    simp only [howner, pure_eq_ok] at hrun
    exact hrun.1.symm
  | some owner =>
    simp only [howner] at hrun
    obtain ⟨location, s₁, hlocate, hrun⟩ := bind_eq_ok.mp hrun
    have hplace := (locate_eq_ok (fun _ => False) hlocate).1
    split at hrun
    · next hdirection =>
      simp only [bind_eq_ok, pure_eq_ok] at hrun
      obtain ⟨world, s₂, hworld, rfl, rfl⟩ := hrun
      have hworldPlace := (worldLocation_eq_ok hworld).1
      simp [hplace, hworldPlace, Except.toOption]
    · next hdirection =>
      obtain ⟨rfl, rfl⟩ := pure_eq_ok.mp hrun
      cases hworldPlace : a.layout.worldPlace a.world.name direction with
      | error e => simp [hplace, Except.toOption]
      | ok world =>
        -- The module of the world is in the direction that was compared.
        have hne : location ≠ world := by
          rintro rfl
          exact hdirection (Layout.direction_of_worldPlace hworldPlace)
        simp [hplace, Except.toOption, hne]

/-- To find out whether a type is declared in the module of the world is to ask
for its owner. -/
theorem Kept.declaresInWorld {t : TypeDef} {direction : Direction} {b : Bool}
    (h : a.Kept orderly granted contents s)
    (hrun : a.declaresInWorld t direction s = .ok b s') :
    a.Kept orderly granted contents s' ∧ s.Advances s' ∧
      ∀ o, t.owner = some o → a.Asked granted o s' := by
  unfold Assignment.declaresInWorld at hrun
  cases howner : t.owner with
  | none =>
    simp only [howner, pure_eq_ok] at hrun
    obtain ⟨rfl, rfl⟩ := hrun
    exact ⟨h, .refl s, fun o ho => by cases ho⟩
  | some owner =>
    simp only [howner] at hrun
    obtain ⟨location, s₁, hlocate, hrun⟩ := bind_eq_ok.mp hrun
    obtain ⟨h₁, hs₁, -, hasked⟩ := h.locate hlocate
    split at hrun
    · simp only [bind_eq_ok, pure_eq_ok] at hrun
      obtain ⟨world, s₂, hworld, rfl, rfl⟩ := hrun
      obtain ⟨-, hmore, hs₂, -⟩ := worldLocation_eq_ok hworld
      obtain ⟨h₂, hadvances⟩ := h₁.claimed hmore hs₂
      refine ⟨h₂, hs₁.trans hadvances, ?_⟩
      rintro o ⟨⟩
      exact hasked.advance hadvances
    · obtain ⟨rfl, rfl⟩ := pure_eq_ok.mp hrun
      refine ⟨h₁, hs₁, ?_⟩
      rintro o ⟨⟩
      exact hasked

/-- An interface is listed when an item lists it. -/
theorem lists_iff {direction : Direction} {j : Int} :
    a.lists direction j = true ↔ ∃ key, (direction, key, .interface j) ∈ a.items := by
  unfold lists items World.items
  cases direction <;> simp

/-- **A run that has walked some items of the world.** -/
structure Progress (a : Assignment) (orderly : a.graph.Orderly) (granted : Int → Prop)
    (items : List (Direction × Scalar × WorldItem)) (s : Session) : Prop where
  /-- The modules hold what they are to declare so far. -/
  kept : a.Kept orderly granted (a.contentAfter items) s
  /-- The interfaces among the items have their modules. -/
  listed : ∀ {direction key j}, (direction, key, .interface j) ∈ items →
    .interface j direction ∈ s.opened
  /-- A module of the world is open if it is to declare something. -/
  world : ∀ {direction}, .world direction ∉ s.opened → a.contentAfter items (.world direction) = {}
  /-- The owners of the types among the items have been asked for. -/
  types : ∀ {direction key id}, (direction, key, .type id) ∈ items →
    ∃ t, a.graph.typeDef id = .ok t ∧ ∀ o, t.owner = some o →
      a.Asked granted o s
  /-- The root of the exports is held since the start. -/
  exports : a.layout.HoldsExports s.claims

variable {items : List (Direction × Scalar × WorldItem)}

/-- At first no item has been walked. -/
theorem Progress.start {claims : Claims} (hexports : a.layout.HoldsExports claims) :
    a.Progress orderly granted [] { claims } where
  kept := Kept.start.of_claims (List.nil_prefix)
  listed h := absurd h List.not_mem_nil
  world _ := rfl
  types h := absurd h List.not_mem_nil
  exports := hexports

/-- What is left to show of an item is what it is about. -/
theorem Progress.snoc {item : Direction × Scalar × WorldItem}
    (h : a.Progress orderly granted items s) (hs : s.Advances s')
    (hkept : a.Kept orderly granted (a.contentAfter (items ++ [item])) s')
    (hlisted : ∀ {direction key j}, item = (direction, key, .interface j) →
      .interface j direction ∈ s'.opened)
    (hworld : ∀ {direction}, .world direction ∉ s'.opened →
      a.typesOfItem direction item = [] ∧ functionsOfItem direction item = [])
    (htypes : ∀ {direction key id}, item = (direction, key, .type id) →
      ∃ t, a.graph.typeDef id = .ok t ∧ ∀ o, t.owner = some o →
        a.Asked granted o s') :
    a.Progress orderly granted (items ++ [item]) s' where
  kept := hkept
  listed := by
    intro direction key j hmem
    rcases List.mem_append.mp hmem with hmem | hmem
    · exact hs.opened (h.listed hmem)
    · exact hlisted (List.mem_singleton.mp hmem).symm
  world := by
    intro direction hclosed
    have hbefore := h.world fun hopen => hclosed (hs.opened hopen)
    obtain ⟨htypes, hfunctions⟩ := hworld hclosed
    simp only [contentAfter, Content.mk.injEq] at hbefore
    simp only [contentAfter, List.flatMap_append, hbefore, List.flatMap_singleton, htypes,
      hfunctions, List.append_nil]
  types := by
    intro direction key id hmem
    rcases List.mem_append.mp hmem with hmem | hmem
    · obtain ⟨t, ht, howner⟩ := h.types hmem
      exact ⟨t, ht, fun o ho => (howner o ho).advance hs⟩
    · exact htypes (List.mem_singleton.mp hmem).symm
  exports := Claims.holder?_of_isPrefix hs.claims h.exports

/-- An item adds nothing to the module of the world for the other direction. -/
theorem ofItem_of_ne {direction direction' : Direction} {key : Scalar} {item : WorldItem}
    (hne : direction ≠ direction') :
    a.typesOfItem direction' (direction, key, item) = [] ∧
      functionsOfItem direction' (direction, key, item) = [] := by
  cases item <;> simp [typesOfItem, functionsOfItem, hne]

/-- An item adds to one module of the world. -/
theorem contentAfter_snoc {direction : Direction} {key : Scalar} {item : WorldItem} :
    a.contentAfter (items ++ [(direction, key, item)]) =
      Function.update (a.contentAfter items) (.world direction)
        ⟨(a.contentAfter items (.world direction)).types ++
            a.typesOfItem direction (direction, key, item),
          (a.contentAfter items (.world direction)).functions ++
            functionsOfItem direction (direction, key, item)⟩ := by
  funext k
  by_cases hk : k = .world direction
  · subst hk
    simp [contentAfter]
  · rw [Function.update_of_ne hk]
    cases k with
    | interface _ _ => rfl
    | world direction' =>
      have hne : direction ≠ direction' := fun heq => hk (heq ▸ rfl)
      obtain ⟨htypes, hfunctions⟩ : a.typesOfItem direction' (direction, key, item) = [] ∧
          functionsOfItem direction' (direction, key, item) = [] := ofItem_of_ne hne
      simp [contentAfter, htypes, hfunctions]

/-- An item that adds nothing changes no contents. -/
theorem contentAfter_snoc_of_nil {direction : Direction} {key : Scalar} {item : WorldItem}
    (htypes : a.typesOfItem direction (direction, key, item) = [])
    (hfunctions : functionsOfItem direction (direction, key, item) = []) :
    a.contentAfter (items ++ [(direction, key, item)]) = a.contentAfter items := by
  rw [contentAfter_snoc, htypes, hfunctions, List.append_nil, List.append_nil]
  exact Function.update_eq_self _ _

/-- An item of an open module of the world adds nothing to one that is not
open. -/
theorem ofItem_of_closed {direction direction' : Direction} {key : Scalar} {item : WorldItem}
    (hopen : .world direction ∈ s.opened) (hclosed : .world direction' ∉ s.opened) :
    a.typesOfItem direction' (direction, key, item) = [] ∧
      functionsOfItem direction' (direction, key, item) = [] :=
  ofItem_of_ne fun heq => hclosed (heq ▸ hopen)

/-- An interface of the world gets its module. -/
theorem Progress.generateInterface {direction : Direction} {key : Scalar} {j : Int}
    (h : a.Progress orderly granted items s) (hitem : (direction, key, .interface j) ∈ a.items)
    (hrun : a.generateInterface j (some key) direction false s = .ok u s') :
    a.Progress orderly granted (items ++ [(direction, key, .interface j)]) s' := by
  have hlists : a.lists direction j = true := lists_iff.mpr ⟨key, hitem⟩
  -- Only an interface that is not listed is generated for its types alone.
  have hrun' : a.generateInterface j (some key) direction (!a.lists direction j) s = .ok u s' := by
    rw [hlists]
    exact hrun
  have hlisted : a.ListedAs j direction (some key) := hitem
  obtain ⟨h₁, hs₁, hopen⟩ := h.kept.generateInterface hlisted rfl hrun'
  refine h.snoc hs₁ ?_ ?_ (fun _ => ⟨rfl, rfl⟩) ?_
  · rw [contentAfter_snoc_of_nil rfl rfl]
    exact h₁
  · rintro _ _ _ ⟨⟩
    exact hopen
  · rintro _ _ _ ⟨⟩

/-- A function of the world goes to the module of the world, unless it belongs
to a resource. -/
theorem Progress.generateWorldFunction {direction : Direction} {key : Scalar} {f : Function}
    (h : a.Progress orderly granted items s)
    (hrun : a.generateWorldFunction f direction s = .ok u s') :
    a.Progress orderly granted (items ++ [(direction, key, .function f)]) s' := by
  unfold Assignment.generateWorldFunction at hrun
  cases hfree : f.isFreestanding with
  | true =>
    rw [hfree, if_pos rfl] at hrun
    obtain ⟨location, s₁, hmodule, hfunction⟩ := bind_eq_ok.mp hrun
    obtain ⟨h₁, hs₁, hopen, hplaced⟩ := h.kept.worldModule h.world hmodule
    obtain ⟨h₂, hs₂⟩ := h₁.generateFunction hplaced ⟨rfl, rfl, rfl⟩ hfunction
    refine h.snoc (hs₁.trans hs₂) ?_ ?_ ?_ ?_
    · rw [contentAfter_snoc]
      simpa [typesOfItem, functionsOfItem, hfree] using h₂
    · rintro _ _ _ ⟨⟩
    · exact fun hclosed => ofItem_of_closed (hs₂.opened hopen) hclosed
    · rintro _ _ _ ⟨⟩
  | false =>
    rw [hfree, if_neg Bool.false_ne_true] at hrun
    obtain ⟨-, rfl⟩ := pure_eq_ok.mp hrun
    have hnone : ∀ direction', functionsOfItem direction' (direction, key, .function f) = [] :=
      fun direction' => by simp [functionsOfItem, hfree]
    refine h.snoc (.refl s) ?_ ?_ (fun _ => ⟨rfl, hnone _⟩) ?_
    · rw [contentAfter_snoc_of_nil rfl (hnone direction)]
      exact h.kept
    · rintro _ _ _ ⟨⟩
    · rintro _ _ _ ⟨⟩

/-- A type that the world lists goes to the module of the world if it is
declared there. -/
theorem Progress.generateWorldType {direction : Direction} {key : Scalar} {id : Int}
    (h : a.Progress orderly granted items s)
    (hrun : a.generateWorldType id direction s = .ok u s') :
    a.Progress orderly granted (items ++ [(direction, key, .type id)]) s' := by
  simp only [Assignment.generateWorldType, bind_eq_ok, Emission.ofExcept_eq_ok] at hrun
  obtain ⟨t, _, ⟨ht, rfl⟩, _, _, ⟨-, rfl⟩, b, s₁, hdeclares, hrest⟩ := hrun
  have hb := eq_declaresHere ht hdeclares
  obtain ⟨h₁, hs₁, howners⟩ := h.kept.declaresInWorld hdeclares
  have hasked : ∀ s₂, s₁.Advances s₂ → ∀ o, t.owner = some o → a.Asked granted o s₂ :=
    fun s₂ hs₂ o ho => (howners o ho).advance hs₂
  cases hdecl : a.declaresHere direction id with
  | true =>
    rw [hdecl] at hb
    rw [if_pos hb] at hrest
    obtain ⟨location, s₂, hmodule, htype⟩ := bind_eq_ok.mp hrest
    obtain ⟨h₂, hs₂, hopen, hplaced⟩ :=
      h₁.worldModule (fun hk => h.world fun hk' => hk (hs₁.opened hk')) hmodule
    obtain ⟨h₃, hs₃⟩ := h₂.generateType hplaced ⟨rfl, rfl, rfl⟩ htype
    refine h.snoc ((hs₁.trans hs₂).trans hs₃) ?_ ?_ ?_ ?_
    · rw [contentAfter_snoc]
      simpa [typesOfItem, functionsOfItem, hdecl, Content.addType] using h₃
    · rintro _ _ _ ⟨⟩
    · exact fun hclosed => ofItem_of_closed (hs₃.opened hopen) hclosed
    · rintro _ _ _ ⟨⟩
      exact ⟨t, ht, hasked s' (hs₂.trans hs₃)⟩
  | false =>
    rw [hdecl] at hb
    rw [hb, if_neg Bool.false_ne_true] at hrest
    obtain ⟨-, rfl⟩ := pure_eq_ok.mp hrest
    have hnone : ∀ direction', a.typesOfItem direction' (direction, key, .type id) = [] := by
      intro direction'
      by_cases heq : direction = direction'
      · subst heq
        simp [typesOfItem, hdecl]
      · exact (ofItem_of_ne heq).1
    refine h.snoc hs₁ ?_ ?_ (fun _ => ⟨hnone _, rfl⟩) ?_
    · rw [contentAfter_snoc_of_nil (hnone direction) rfl]
      exact h₁
    · rintro _ _ _ ⟨⟩
    · -- The owner has been asked for all the same.
      rintro _ _ _ ⟨⟩
      exact ⟨t, ht, hasked s₁ (.refl s₁)⟩

/-- **An item is walked.** -/
theorem Progress.generateItem {item : Direction × Scalar × WorldItem}
    (h : a.Progress orderly granted items s) (hitem : item ∈ a.items)
    (hrun : a.generateItem item s = .ok u s') :
    a.Progress orderly granted (items ++ [item]) s' := by
  obtain ⟨direction, key, item⟩ := item
  cases item with
  | interface j => exact h.generateInterface hitem hrun
  | function f => exact h.generateWorldFunction hrun
  | type id => exact h.generateWorldType hrun

/-! ## Interfaces that wait -/

/-- Nobody is granted a module. -/
def NoGrant (_ : Int) : Prop := False

/-- A note that is taken off is as good as a grant. -/
theorem Noted.take {j : Int} {owner : TypeOwner} (h : a.Noted NoGrant owner s) :
    a.Noted (· = j) owner { s with pending := s.pending.erase j } := by
  cases owner with
  | world _ => trivial
  | interface k =>
    refine h.imp id (.imp id ?_)
    rintro (hk | hk)
    · by_cases heq : k = j
      · exact .inr heq
      · exact .inl ((List.mem_erase_of_ne heq).mpr hk)
    · exact hk.elim

/-- A grant is redeemed when the module is open. -/
theorem Noted.redeem {j : Int} {owner : TypeOwner} (h : a.Noted (· = j) owner s)
    (hopen : .interface j .imported ∈ s.opened) : a.Noted NoGrant owner s := by
  cases owner with
  | world _ => trivial
  | interface k =>
    rcases h with hlisted | hk | hk | rfl
    · exact .inl hlisted
    · exact .inr (.inl hk)
    · exact .inr (.inr (.inl hk))
    · exact .inr (.inl hopen)

/-- **A noted interface gets its module**, for its types only. -/
theorem Progress.take {j : Int} (h : a.Progress orderly NoGrant items s) (hj : j ∈ s.pending)
    (hrun : a.generateInterface j none .imported true { s with pending := s.pending.erase j }
      = .ok u s') :
    a.Progress orderly NoGrant items s' ∧
      ({ s with pending := s.pending.erase j } : Session).Advances s' ∧
      .interface j .imported ∈ s'.opened := by
  have hunlisted : a.Unlisted j := (h.kept.coherent.pending j hj).1
  have htaken := h.kept.regrant (List.erase_subset) fun o ho => Noted.take (j := j) ho
  rw [show true = !a.lists .imported j by rw [hunlisted.1]; rfl] at hrun
  have hlisted : a.ListedAs j .imported none := ⟨hunlisted, rfl⟩
  obtain ⟨h₁, hs₁, hopen⟩ := htaken.generateInterface hlisted rfl hrun
  have hopened : s.opened ⊆ s'.opened := hs₁.opened
  have hexports := Claims.holder?_of_isPrefix hs₁.claims h.exports
  refine ⟨⟨h₁.regrant (List.Subset.refl _) fun o ho => ho.redeem hopen, ?_, ?_, ?_, hexports⟩,
    hs₁, hopen⟩
  · exact fun hmem => hopened (h.listed hmem)
  · exact fun hclosed => h.world fun hk => hclosed (hopened hk)
  · intro direction key id hmem
    obtain ⟨t, ht, howner⟩ := h.types hmem
    refine ⟨t, ht, fun o ho => ?_⟩
    have hasked := howner o ho
    exact ⟨((hasked.noted.take (j := j)).advance hs₁).redeem hopen, hasked.held.mono hs₁.claims⟩

/-- **Every interface of the graph can still be taken**, or has its import
module. -/
def Covers (a : Assignment) (untaken : List Int) (s : Session) : Prop :=
  ∀ j, (∃ i, a.graph.interface j = .ok i) → j ∈ untaken ∨ .interface j .imported ∈ s.opened

/-- At first all interfaces can be taken. -/
theorem covers_all :
    a.Covers ((List.range a.graph.interfaces.length).map Int.ofNat) s := by
  rintro j ⟨i, hi⟩
  obtain ⟨hk, hid⟩ := getElem?_of_entryAt (entryAt_of_elim_eq_ok hi)
  obtain ⟨hlt, -⟩ := List.getElem?_eq_some_iff.mp hk
  exact .inl (List.mem_map.mpr ⟨j.toNat, List.mem_range.mpr hlt, hid⟩)

/-- What could be taken still can, except for the one that has its module
now. -/
theorem Covers.take {untaken : List Int} {j : Int} (h : a.Covers untaken s)
    (hopened : s.opened ⊆ s'.opened) (hopen : .interface j .imported ∈ s'.opened) :
    a.Covers (untaken.erase j) s' := by
  intro k hk
  rcases h k hk with hk | hk
  · by_cases heq : k = j
    · exact .inr (heq ▸ hopen)
    · exact .inl ((List.mem_erase_of_ne heq).mpr hk)
  · exact .inr (hopened hk)

/-- **The last loop redeems every note.** An interface of the graph can still
be taken or has its module, so when no noted interface can be taken, all of
them have theirs. -/
theorem Progress.generatePending {untaken : List Int} (h : a.Progress orderly NoGrant items s)
    (hleft : a.Covers untaken s) (hrun : a.generatePending untaken s = .ok u s') :
    a.Progress orderly NoGrant items s' ∧ s.Within s' ∧ s'.Within s' := by
  induction untaken, s using generatePending_induction with
  | @finished untaken s hfind =>
    rw [generatePending_of_none hfind] at hrun
    cases hrun
    have hwithin : s'.Within s' := by
      refine ⟨id, List.Subset.refl _, fun j hj => ?_⟩
      have htaken : j ∉ untaken := by simpa using List.find?_eq_none.mp hfind j hj
      exact (hleft j (h.kept.coherent.pending j hj).2).resolve_left htaken
    exact ⟨h, hwithin, hwithin⟩
  | @round untaken s j hfind hj hwaits ih =>
    rw [generatePending_of_some hfind] at hrun
    obtain ⟨_, s₁, htake, hrest⟩ := bind_eq_ok.mp hrun
    obtain ⟨h₁, hs₁, hopen⟩ := h.take hwaits htake
    obtain ⟨h₂, hwithin, hwithin'⟩ := ih s₁ h₁ (hleft.take hs₁.opened hopen) hrest
    have hrest := hwithin.of_advances hs₁
    refine ⟨h₂, ⟨hrest.claims, hrest.opened, fun k hk => ?_⟩, hwithin'⟩
    by_cases heq : k = j
    · exact heq ▸ hwithin.opened hopen
    · exact hrest.pending k ((List.mem_erase_of_ne heq).mpr hk)

/-! ## The whole run -/

/-- **A run that has come to its end.** -/
structure Finished (a : Assignment) (orderly : a.graph.Orderly) (s : Session) : Prop where
  /-- All items of the world have been walked. -/
  progress : a.Progress orderly NoGrant a.items s
  /-- Every interface that was asked for has the module that declares its
  types. -/
  opened : ∀ {j}, a.Noted NoGrant (.interface j) s → .interface j (a.directionOf j) ∈ s.opened

/-- The module that declares the types of an interface that the world lists is
open when all items have been walked. -/
theorem Progress.opened_of_listed {j : Int} (h : a.Progress orderly granted a.items s)
    (hlisted : ¬ a.Unlisted j) : .interface j (a.directionOf j) ∈ s.opened := by
  unfold directionOf
  cases himported : a.lists .imported j with
  | true =>
    obtain ⟨key, hkey⟩ := lists_iff.mp himported
    simpa using h.listed hkey
  | false =>
    cases hexported : a.lists .exported j with
    | true =>
      obtain ⟨key, hkey⟩ := lists_iff.mp hexported
      simpa using h.listed hkey
    | false => exact absurd ⟨himported, hexported⟩ hlisted

/-- The items of the world are walked one by one. -/
theorem progress_of_items {claims : Claims} (hexports : a.layout.HoldsExports claims)
    (hrun : a.items.forM a.generateItem { claims } = .ok u s) :
    a.Progress orderly NoGrant a.items s :=
  forM_keeps (I := fun done s => a.Progress orderly NoGrant done s)
    (fun _ _ _ _ _ hitem h hstep => h.generateItem hitem hstep) (.start hexports) hrun

/-- **A run that starts from its layout and succeeds is finished.** -/
theorem finished_of_generateAll {claims : Claims} (hexports : a.layout.HoldsExports claims)
    (hrun : a.generateAll { claims } = .ok u s) : a.Finished orderly s := by
  obtain ⟨_, s₁, hitems, hpending⟩ := bind_eq_ok.mp hrun
  have h₁ : a.Progress orderly NoGrant a.items s₁ := progress_of_items hexports hitems
  obtain ⟨h₂, -, hredeemed⟩ := h₁.generatePending covers_all hpending
  refine ⟨h₂, fun {j} hnoted => ?_⟩
  by_cases hunlisted : a.Unlisted j
  · have hdirection : a.directionOf j = .imported := by
      simp [directionOf, hunlisted.1, hunlisted.2]
    rw [hdirection]
    rcases hnoted with hlisted | hopen | hj | hno
    · exact absurd hunlisted hlisted
    · exact hopen
    · exact hredeemed.pending j hj
    · exact hno.elim
  · exact h₂.opened_of_listed hunlisted

end Assignment

/-- **What a run assigns to modules**, from its options. -/
def Assignment.ofOptions (g : Graph) (o : Options) (world : World) : Assignment :=
  ⟨g, world, ⟨o.baseSegments⟩⟩

/-- The layout that a run starts with has the base that it was given. -/
theorem Layout.eq_of_start {base : List String} {l : Layout} {claims : Claims}
    (h : Layout.start base [] = .ok l claims) : l = ⟨base⟩ := by
  simp only [Layout.start, bind_eq_ok, pure_eq_ok] at h
  obtain ⟨_, _, -, rfl, -⟩ := h
  rfl

/-- The root of the exports is held when a run starts. -/
theorem Layout.holdsExports_of_start {base : List String} {l : Layout} {claims : Claims}
    (h : Layout.start base [] = .ok l claims) : l.HoldsExports claims := by
  simp only [Layout.start, bind_eq_ok, claim_eq_ok, pure_eq_ok] at h
  obtain ⟨_, _, hregister, rfl, rfl⟩ := h
  exact Claims.holder?_of_register hregister

/-- A run goes on from the claim of the exports. -/
theorem generateWorld_eq {g : Graph} {o : Options} {world : World} {layout : Layout}
    {claims : Claims} (h : Layout.start o.baseSegments [] = .ok layout claims) :
    generateWorld g o world {} = (Assignment.ofOptions g o world).generateAll { claims } := by
  have hlayout : Emission.ofNaming (Layout.start o.baseSegments) {} = .ok layout { claims } :=
    Emission.ofNaming_eq_ok.mpr ⟨claims, h, rfl⟩
  obtain rfl := Layout.eq_of_start h
  unfold generateWorld
  simp only [bind, EStateM.bind, hlayout]
  rfl

/-- **Modules are returned by a run over the selected world**, from the claim of
the exports to the last module. -/
theorem generateModules_iff {g : Graph} {o : Options} {ms : List Module} :
    generateModules g o = .ok ms ↔ ∃ world claims s, selectWorld g o = .ok world ∧
      Layout.start o.baseSegments [] = .ok ⟨o.baseSegments⟩ claims ∧
      (Assignment.ofOptions g o world).generateAll { claims } = .ok () s ∧ s.modules = ms := by
  constructor
  · intro h
    obtain ⟨world, hworld, hrun⟩ := except_bind_eq_ok.mp h
    cases hgenerate : generateWorld g o world {} with
    | error fault s => simp [hgenerate] at hrun
    | ok u s =>
      simp only [hgenerate, Except.ok.injEq] at hrun
      obtain ⟨layout, s₁, hstart, hall⟩ := bind_eq_ok.mp hgenerate
      obtain ⟨claims, hclaims, rfl⟩ := Emission.ofNaming_eq_ok.mp hstart
      obtain rfl := Layout.eq_of_start hclaims
      exact ⟨world, claims, s, hworld, hclaims, hall, hrun⟩
  · rintro ⟨world, claims, s, hworld, hstart, hall, rfl⟩
    refine except_bind_eq_ok.mpr ⟨world, hworld, ?_⟩
    rw [generateWorld_eq hstart, hall]

/-- **Modules that are returned come from a finished run.** -/
theorem finished_of_generateModules {g : Graph} (orderly : g.Orderly) {o : Options}
    {ms : List Module} (h : generateModules g o = .ok ms) :
    ∃ world s, selectWorld g o = .ok world ∧
      (Assignment.ofOptions g o world).Finished orderly s ∧ s.modules = ms := by
  obtain ⟨world, claims, s, hworld, hstart, hall, hms⟩ := generateModules_iff.mp h
  exact ⟨world, s, hworld,
    Assignment.finished_of_generateAll (Layout.holdsExports_of_start hstart) hall, hms⟩

/-- A run that leaves no interface waiting returns the modules of its items. -/
theorem generateModules_eq_ok {g : Graph} {o : Options} {world : World} {layout : Layout}
    {claims : Claims} {s : Session} (hworld : selectWorld g o = .ok world)
    (hstart : Layout.start o.baseSegments [] = .ok layout claims)
    (hitems : (Assignment.mk g world layout).items.forM
      (Assignment.mk g world layout).generateItem { claims } = .ok () s)
    (hpending : s.pending = []) : generateModules g o = .ok s.modules := by
  obtain rfl := Layout.eq_of_start hstart
  exact generateModules_iff.mpr ⟨world, claims, s, hworld, hstart,
    bind_eq_ok.mpr ⟨(), s, hitems, Assignment.generatePending_of_nil hpending⟩, rfl⟩

end ComponentBindings
