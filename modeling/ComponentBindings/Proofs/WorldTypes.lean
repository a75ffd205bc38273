import ComponentBindings.Proofs.Integrity
import Mathlib.Algebra.Order.BigOperators.Group.List
import Mathlib.Algebra.Order.Ring.Nat

/-!
# Types that the world lists

A world lists types of its own, of other worlds, and of interfaces. Whether
one of them is declared in the module of the world is decided item by item,
and what is decided against is left to the module of the owner. For an
interface that is as it should be: the type is declared at the interface. For
a world it need not be. All types of a world have one place, the module of the
imports as soon as one of them is imported, and a type that is only exported is
passed over then, since its owner is located elsewhere. The same happens to the
types of another world, unless it goes by the same name.

`world_types_declared` draws the line. A listed type of a world is declared at
the world exactly when the world has its name from the selected one, the item
is in the direction of the place (`Assignment.InPlace`), and no generated
interface declares the type as well.
-/

namespace ComponentBindings

namespace Assignment

variable {a : Assignment} {orderly : a.graph.Orderly} {s : Session}

/-- Whether the world lists a type in a direction. -/
def ListsType (a : Assignment) (direction : Direction) (id : Int) : Prop :=
  ∃ key, (key, .type id) ∈ a.world.items direction

/-- How often the world lists a type in a direction. -/
def timesListed (a : Assignment) (direction : Direction) (id : Int) : Nat :=
  (a.world.items direction).countP fun (_, item) => item = .type id

/-- An item of the world is one of its imports or exports. -/
theorem mem_items {direction : Direction} {key : Scalar} {item : WorldItem} :
    (direction, key, item) ∈ a.items ↔ (key, item) ∈ a.world.items direction := by
  unfold items World.items
  cases direction <;> simp

/-! ## The direction of the types of a world -/

/-- The types among more items of one direction are those from before, and the
new ones in that direction. -/
theorem mem_foldl_withItem {direction d : Direction} {id : Int} {items : List (Scalar × WorldItem)}
    {types : List (Int × Direction)} :
    (id, d) ∈ (items.map (direction, ·)).foldl withItem types ↔
      (id, d) ∈ types ∨
        (d = direction ∧ (∃ key, (key, .type id) ∈ items) ∧ ∀ d', (id, d') ∉ types) := by
  -- What an item adds is what the rest starts from, so the start has to vary.
  induction items generalizing types with
  | nil => simp
  | cons entry items ih =>
    obtain ⟨key, item⟩ := entry
    rw [List.map_cons, List.foldl_cons, ih]
    cases item with
    | interface _ => simp [withItem]
    | function _ => simp [withItem]
    | type other =>
      by_cases hknown : ∃ d', (other, d') ∈ types
      · have hany : types.any (·.1 = other) = true := by simpa using hknown
        simp only [withItem, hany, if_true]
        by_cases heq : id = other
        · subst heq
          obtain ⟨d', hd'⟩ := hknown
          have hno : ¬ ∀ d', (id, d') ∉ types := fun hall => hall d' hd'
          simp [hno]
        · simp [heq]
      · have hany : types.any (·.1 = other) = false := by
          rw [← Bool.not_eq_true]
          simpa using hknown
        simp only [withItem, hany, Bool.false_eq_true, if_false, List.mem_append,
          List.mem_singleton, Prod.mk.injEq]
        by_cases heq : id = other
        · subst heq
          have hno : ∀ d', (id, d') ∉ types := fun d' hd' => hknown ⟨d', hd'⟩
          simp [hno]
        · simp [heq]

/-- **A type counts as imported if the world imports it**, and as exported if
the world only exports it. -/
theorem mem_worldTypes {id : Int} {d : Direction} :
    (id, d) ∈ a.worldTypes ↔
      (d = .imported ∧ a.ListsType .imported id) ∨
        (d = .exported ∧ a.ListsType .exported id ∧ ¬ a.ListsType .imported id) := by
  unfold worldTypes items
  rw [List.foldl_append, mem_foldl_withItem, mem_foldl_withItem]
  have himports : ∀ d', (id, d') ∉ (a.world.imports.map (Direction.imported, ·)).foldl withItem [] ↔
      ¬ (d' = .imported ∧ a.ListsType .imported id) := by
    intro d'
    rw [mem_foldl_withItem]
    simp [ListsType, World.items]
  simp only [himports]
  simp [ListsType, World.items]

/-- A list that is filtered with possible faults is filtered item by item. -/
theorem forall₂_of_filterMapM_eq_ok {ε α β : Type} {f : α → Except ε (Option β)} {xs : List α}
    {ys : List β} (h : xs.filterMapM f = .ok ys) :
    ∃ found, List.Forall₂ (fun x y => f x = .ok y) xs found ∧ ys = found.reduceOption := by
  induction xs generalizing ys with
  | nil =>
    obtain rfl : [] = ys := by simpa using h
    exact ⟨[], .nil, rfl⟩
  | cons x xs ih =>
    rw [List.filterMapM_cons, except_bind_eq_ok] at h
    obtain ⟨y, hy, h⟩ := h
    cases y with
    | none =>
      obtain ⟨found, hfound, rfl⟩ := ih h
      exact ⟨none :: found, .cons hy hfound, rfl⟩
    | some y =>
      obtain ⟨ys', hys, h⟩ := except_bind_eq_ok.mp h
      obtain rfl := except_pure_eq_ok.mp h
      obtain ⟨found, hfound, rfl⟩ := ih hys
      exact ⟨some y :: found, .cons hy hfound, rfl⟩

/-- The directions of the types of a world are those of the types that it
owns. -/
theorem mem_owned {k : Int} {owned : List Direction}
    (h : a.worldTypes.filterMapM (a.directionInWorld k) = .ok owned) {d : Direction} :
    d ∈ owned ↔ ∃ id, (id, d) ∈ a.worldTypes ∧ a.graph.OwnsType (.world k) id := by
  obtain ⟨found, hfound, rfl⟩ := forall₂_of_filterMapM_eq_ok h
  constructor
  · intro hd
    obtain ⟨⟨id, d'⟩, hid, hfilter⟩ := exists_of_mem_right hfound (mem_of_mem_reduceOption hd)
    obtain ⟨t, ht, hfilter⟩ := except_bind_eq_ok.mp hfilter
    have hsome := except_pure_eq_ok.mp hfilter
    split at hsome
    · next howner =>
      obtain rfl := Option.some.inj hsome
      exact ⟨id, hid, t, ht, howner⟩
    · cases hsome
  · rintro ⟨id, hid, t, ht, howner⟩
    obtain ⟨y, hy, hfilter⟩ := exists_of_mem_left hfound hid
    obtain ⟨t', ht', hfilter⟩ := except_bind_eq_ok.mp hfilter
    obtain rfl := Except.ok.inj (ht.symm.trans ht')
    obtain rfl := except_pure_eq_ok.mp hfilter
    rw [if_pos howner] at hy
    exact List.mem_filterMap.mpr ⟨some d, hy, rfl⟩

/-- **The types of the selected world are imported** if one of them is, or if
there are none. -/
theorem worldDirection_eq_imported {k : Int} {direction : Direction}
    (h : a.worldDirection k = .ok direction) :
    direction = .imported ↔
      (∃ id, a.ListsType .imported id ∧ a.graph.OwnsType (.world k) id) ∨
        ∀ d id, a.ListsType d id → ¬ a.graph.OwnsType (.world k) id := by
  obtain ⟨owned, howned, h⟩ := except_bind_eq_ok.mp h
  have hmem := fun {d} => mem_owned howned (d := d)
  have hnil : owned = [] ↔ ∀ d id, a.ListsType d id → ¬ a.graph.OwnsType (.world k) id := by
    rw [List.eq_nil_iff_forall_not_mem]
    constructor
    · intro hnone d id hlists howns
      -- A type that is listed in both directions counts as imported.
      by_cases himported : a.ListsType .imported id
      · exact hnone .imported (hmem.mpr ⟨id, mem_worldTypes.mpr (.inl ⟨rfl, himported⟩), howns⟩)
      · cases d with
        | imported => exact himported hlists
        | exported =>
          exact hnone .exported
            (hmem.mpr ⟨id, mem_worldTypes.mpr (.inr ⟨rfl, hlists, himported⟩), howns⟩)
    · intro hnone d hd
      obtain ⟨id, hid, howns⟩ := hmem.mp hd
      rcases mem_worldTypes.mp hid with ⟨-, hlists⟩ | ⟨-, hlists, -⟩
      · exact hnone _ id hlists howns
      · exact hnone _ id hlists howns
  have himported : .imported ∈ owned ↔
      ∃ id, a.ListsType .imported id ∧ a.graph.OwnsType (.world k) id := by
    rw [mem_owned howned]
    simp [mem_worldTypes]
  rw [← himported, ← hnil]
  obtain rfl := except_pure_eq_ok.mp h
  by_cases hcond : owned.contains .imported || owned.isEmpty
  · simp_all
  · simp_all

/-- **An item is in the direction of the place of its owner**: for the types of
a world whose name is that of the selected one, the item is an import, or the
world is the selected one and none of its types is imported. -/
def InPlace (a : Assignment) (k id : Int) : Prop :=
  ∃ w, a.graph.world k = .ok w ∧ w.name = a.world.name ∧
    (a.ListsType .imported id ∨
      w = a.world ∧ ∀ other, a.graph.OwnsType (.world k) other → ¬ a.ListsType .imported other)

/-- A world of the graph is the selected one if it has its id. -/
theorem eq_world_iff (orderly : a.graph.Orderly) (hmem : a.world ∈ a.graph.worlds) {k : Int}
    {w : World} (hw : a.graph.world k = .ok w) : w = a.world ↔ w.id = a.world.id := by
  constructor
  · rintro rfl
    rfl
  · intro hid
    obtain ⟨hk, -⟩ := getElem?_of_entryAt (entryAt_of_elim_eq_ok hw)
    have hworld := orderly.world_of_mem (List.mem_of_getElem? hk)
    rw [hid, orderly.world_of_mem hmem] at hworld
    exact (Except.ok.inj hworld).symm

/-- **A type that a world owns is listed in the direction of its place** when
its item is. -/
theorem listsType_ownedDirection (orderly : a.graph.Orderly) (hmem : a.world ∈ a.graph.worlds)
    {k id : Int} {w : World} {direction : Direction} (hw : a.graph.world k = .ok w)
    (hdirection : a.ownedDirection k w = .ok direction)
    (howns : a.graph.OwnsType (.world k) id) (hlisted : ∃ d, a.ListsType d id) :
    a.ListsType direction id ↔ a.ListsType .imported id ∨
      w = a.world ∧ ∀ other, a.graph.OwnsType (.world k) other → ¬ a.ListsType .imported other := by
  unfold ownedDirection at hdirection
  by_cases hsame : w.id = a.world.id
  · rw [if_pos hsame] at hdirection
    have hworld := (eq_world_iff orderly hmem hw).mpr hsame
    have himported := worldDirection_eq_imported hdirection
    have hsome : ¬ ∀ d id, a.ListsType d id → ¬ a.graph.OwnsType (.world k) id := by
      intro hnone
      obtain ⟨d, hd⟩ := hlisted
      exact hnone d id hd howns
    simp only [hsome, or_false] at himported
    by_cases hid : a.ListsType .imported id
    · obtain rfl := himported.mpr ⟨id, hid, howns⟩
      simp [hid]
    · simp only [hid, false_or, hworld, true_and]
      cases direction with
      | imported =>
        obtain ⟨other, hother, hotherOwns⟩ := himported.mp rfl
        simp only [hid, false_iff]
        exact fun hall => hall other hotherOwns hother
      | exported =>
        have hexported : a.ListsType .exported id := by
          obtain ⟨d, hd⟩ := hlisted
          cases d with
          | imported => exact absurd hd hid
          | exported => exact hd
        simp only [hexported, true_iff]
        intro other hother himp
        exact absurd (himported.mpr ⟨other, himp, hother⟩) (by simp)
  · rw [if_neg hsame] at hdirection
    obtain rfl := Except.ok.inj hdirection
    have hother : w ≠ a.world := fun heq => hsame (by rw [heq])
    simp [hother]

/-- **A generated interface lists a type**, and declares it therefore. -/
def ListedByInterface (a : Assignment) (ms : List Module) (id : Int) : Prop :=
  ∃ m ∈ ms, ∃ j direction i, m.key = .interface j direction ∧ a.graph.interface j = .ok i ∧
    id ∈ i.types.map Prod.snd

/-- The place of a world is that of its name. -/
theorem place_world {k : Int} {w : World} {direction : Direction} (hw : a.graph.world k = .ok w)
    (hdirection : a.ownedDirection k w = .ok direction) :
    a.place (.world k) = a.layout.worldPlace w.name direction := by
  show (a.graph.world k >>= fun world => a.ownedDirection k world >>= fun direction =>
    a.layout.worldPlace world.name direction) = _
  rw [hw]
  show (a.ownedDirection k w >>= _) = _
  rw [hdirection]
  rfl

/-- A type of a world belongs in the module of the selected world that is at
the place of its owner. -/
theorem declaresHere_iff {owner : TypeOwner} {id : Int} {direction : Direction}
    {location here : Location} (howns : a.graph.OwnsType owner id)
    (hplace : a.place owner = .ok location)
    (hhere : a.layout.worldPlace a.world.name direction = .ok here) :
    a.declaresHere direction id = true ↔ location = here := by
  obtain ⟨t, ht, howner⟩ := howns
  unfold declaresHere
  rw [ht]
  simp [howner, hplace, hhere, Except.toOption]

/-! ## Counting items -/

/-- The items of one direction that add a type to a module of the world. -/
theorem count_typesOfItem {direction d : Direction} {id : Int} (items : List (Scalar × WorldItem))
    (h : a.declaresHere direction id = true) :
    ((items.map (d, ·)).flatMap (a.typesOfItem direction)).count id
      = if d = direction then items.countP fun (_, item) => item = .type id else 0 := by
  induction items with
  | nil => simp
  | cons entry items ih =>
    obtain ⟨key, item⟩ := entry
    rw [List.map_cons, List.flatMap_cons, List.count_append, ih, List.countP_cons]
    cases item with
    | interface _ => simp [typesOfItem]
    | function _ => simp [typesOfItem]
    | type other =>
      by_cases hd : d = direction
      · by_cases heq : other = id
        · subst heq
          simp [typesOfItem, hd, h, Nat.add_comm]
        · by_cases hother : a.declaresHere direction other = true
          · simp [typesOfItem, hd, hother, heq]
          · simp [typesOfItem, hd, hother, heq]
      · simp [typesOfItem, hd]

/-- **The module of the world declares a type as often as the world lists it**
in the direction of the module. -/
theorem count_contentAfter {direction : Direction} {id : Int}
    (h : a.declaresHere direction id = true) :
    (a.contentAfter a.items (.world direction)).types.count id = a.timesListed direction id := by
  show (a.items.flatMap (a.typesOfItem direction)).count id = _
  unfold items timesListed World.items
  rw [List.flatMap_append, List.count_append, count_typesOfItem _ h, count_typesOfItem _ h]
  cases direction <;> simp

namespace Finished

variable (h : a.Finished orderly s)
include h

/-- Modules that declare a type that is declared once are one. -/
theorem key_eq_of_once {id : Int} (honce : timesDeclared s.modules id = 1) {key key' : ModuleKey}
    (hkey : key ∈ s.opened) (hkey' : key' ∈ s.opened)
    (hid : id ∈ (a.contentAfter a.items key).types)
    (hid' : id ∈ (a.contentAfter a.items key').types) : key = key' := by
  by_contra hne
  rw [h.timesDeclared_eq, ← List.sum_map_erase _ hkey] at honce
  have hrest : key' ∈ s.opened.erase key := (List.mem_erase_of_ne (Ne.symm hne)).mpr hkey'
  have hle := List.le_sum_of_mem (List.mem_map_of_mem
    (f := fun key => (a.contentAfter a.items key).types.count id) hrest)
  have hpos := List.count_pos_iff.mpr hid
  have hpos' := List.count_pos_iff.mpr hid'
  omega

/-- The owner of a type that the world lists was asked for. -/
theorem asked_of_listed {owner : TypeOwner} {id : Int} (howns : a.graph.OwnsType owner id)
    (hlisted : ∃ d, a.ListsType d id) : a.Asked NoGrant owner s := by
  obtain ⟨d, key, hitem⟩ := hlisted
  obtain ⟨t, ht, hasked⟩ := h.progress.types (mem_items.mpr hitem)
  obtain ⟨t', ht', howner⟩ := howns
  obtain rfl := Except.ok.inj (ht.symm.trans ht')
  exact hasked owner howner

/-- **A world that is located where the selected one is** goes by its name. -/
theorem name_eq_of_place (hmem : a.world ∈ a.graph.worlds) {k : Int} {w : World}
    {direction : Direction} {m : Module} (hm : m ∈ s.modules) (hkey : m.key = .world direction)
    (hw : a.graph.world k = .ok w) (hdirection : a.ownedDirection k w = .ok direction)
    (hplace : a.layout.worldPlace w.name direction = .ok m.location)
    (hgranted : a.layout.WorldGranted s.claims w.name direction) : w.name = a.world.name := by
  by_cases hsame : w.id = a.world.id
  · rw [(eq_world_iff orderly hmem hw).mpr hsame]
  · unfold ownedDirection at hdirection
    rw [if_neg hsame] at hdirection
    obtain rfl := Except.ok.inj hdirection
    have hplaced := h.progress.kept.placed m hm
    rw [hkey] at hplaced
    -- Both names have the container as their identifier, and it is claimed once.
    have hheld := hgranted _ (Layout.container_of_worldPlace hplace)
    rw [hplaced.2 _ (Layout.container_of_worldPlace hplaced.1)] at hheld
    simpa using hheld.symm

/-- **A type that is declared at a world is in its place**, and no generated
interface lists it. -/
theorem inPlace_of_declaredAt (hmem : a.world ∈ a.graph.worlds) {k id : Int}
    (howns : a.graph.OwnsType (.world k) id) (hlisted : ∃ d, a.ListsType d id)
    (hdeclared : a.DeclaredAt s.modules (.world k) id) :
    a.InPlace k id ∧ ¬ a.ListedByInterface s.modules id := by
  obtain ⟨w, direction, location, hw, hdirection, hworldPlace, hgranted⟩ :=
    (h.asked_of_listed howns hlisted).held
  have hplace : a.place (.world k) = .ok location := (place_world hw hdirection).trans hworldPlace
  obtain ⟨htimes, m, hm, d, hd, hid, hlocates, -⟩ := hdeclared
  obtain ⟨found, hfound⟩ := (h.asked_of_listed howns hlisted).held.locates
  obtain rfl : found = location := Except.ok.inj ((place_of_locates hfound).symm.trans hplace)
  obtain rfl : found = m.location := (hlocates found).mp hfound
  have hplaced := h.progress.kept.placed m hm
  have hcontent := (h.declaresType_iff hm).mp ⟨d, hd, hid⟩
  have hopen : m.key ∈ s.opened := List.mem_map_of_mem hm
  cases hkey : m.key with
  | interface j direction' =>
    rw [hkey] at hplaced
    exact absurd hworldPlace (interfacePlace_ne_worldPlace hplaced.1)
  | world direction' =>
    rw [hkey] at hplaced hcontent hopen
    obtain rfl : direction' = direction := (Layout.direction_of_worldPlace hplaced.1).symm.trans
      (Layout.direction_of_worldPlace hworldPlace)
    obtain ⟨⟨key, hitem⟩, -⟩ := mem_types_world.mp hcontent
    have hlists := listsType_ownedDirection orderly hmem hw hdirection howns hlisted
    refine ⟨⟨w, hw, ?_, hlists.mp ⟨key, mem_items.mp hitem⟩⟩, ?_⟩
    · exact h.name_eq_of_place hmem hm hkey hw hdirection hworldPlace hgranted
    · -- The interface would declare the type a second time.
      rintro ⟨m', hm', j, direction', i, hkey', hi, hid'⟩
      have hother : id ∈ (a.contentAfter a.items (.interface j (a.directionOf j))).types :=
        mem_types_interface.mpr ⟨rfl, i, hi, hid'⟩
      have hsame := h.key_eq_of_once htimes hopen (h.opened_of_module hm' hkey') hcontent hother
      cases hsame

/-- **A listed type that is in its place is declared at its world**, unless a
generated interface lists it. -/
theorem declaredAt_of_inPlace (hmem : a.world ∈ a.graph.worlds) {k id : Int}
    (howns : a.graph.OwnsType (.world k) id) (hlisted : ∃ d, a.ListsType d id)
    (honce : ∀ d, a.timesListed d id ≤ 1) (hinPlace : a.InPlace k id)
    (hfree : ¬ a.ListedByInterface s.modules id) : a.DeclaredAt s.modules (.world k) id := by
  have hheld := (h.asked_of_listed howns hlisted).held
  obtain ⟨w, direction, location, hw, hdirection, hworldPlace, -⟩ := hheld
  obtain ⟨w', hw', hname, hitem⟩ := hinPlace
  obtain rfl : w = w' := Except.ok.inj (hw.symm.trans hw')
  have hplace : a.place (.world k) = .ok location := (place_world hw hdirection).trans hworldPlace
  have hhere : a.layout.worldPlace a.world.name direction = .ok location := hname ▸ hworldPlace
  have hdeclares := (declaresHere_iff howns hplace hhere).mpr rfl
  obtain ⟨key, hkey⟩ :=
    (listsType_ownedDirection orderly hmem hw hdirection howns hlisted).mpr hitem
  have hcontent : id ∈ (a.contentAfter a.items (.world direction)).types :=
    mem_types_world.mpr ⟨⟨key, mem_items.mpr hkey⟩, hdeclares⟩
  have hopen : .world direction ∈ s.opened := by
    by_contra hclosed
    rw [h.progress.world hclosed] at hcontent
    exact absurd hcontent List.not_mem_nil
  obtain ⟨m, hm, hmkey⟩ := List.mem_map.mp hopen
  have hplaced := h.progress.kept.placed m hm
  rw [hmkey] at hplaced
  obtain rfl : location = m.location := Except.ok.inj (hhere.symm.trans hplaced.1)
  refine h.declaredAt_of_only howns (h.asked_of_listed howns hlisted).held hm hplace ?_
    fun key' hopen' hid' => ?_
  · rw [hmkey, count_contentAfter hdeclares]
    have hpos : 0 < a.timesListed direction id :=
      List.countP_pos_iff.mpr ⟨(key, .type id), hkey, by simp⟩
    have hle := honce direction
    omega
  · obtain ⟨m', hm', rfl⟩ := List.mem_map.mp hopen'
    cases hkey' : m'.key with
    | interface j direction' =>
      rw [hkey'] at hid'
      obtain ⟨-, i, hi, hid'⟩ := mem_types_interface.mp hid'
      exact absurd ⟨m', hm', j, direction', i, hkey', hi, hid'⟩ hfree
    | world direction' =>
      -- Both modules of the world are the place of the owner, so they are one.
      have hplaced' := h.progress.kept.placed m' hm'
      rw [hkey'] at hid' hplaced'
      have hthere := (declaresHere_iff howns hplace hplaced'.1).mp (mem_types_world.mp hid').2
      rw [hmkey, ← Layout.direction_of_worldPlace hplaced'.1, ← hthere,
        Layout.direction_of_worldPlace hplaced.1]

end Finished

end Assignment

/-- The world that is selected is one of the graph. -/
theorem mem_of_selectWorld {g : Graph} {o : Options} {world : World}
    (h : selectWorld g o = .ok world) : world ∈ g.worlds := by
  unfold selectWorld at h
  cases hname : o.world with
  | some name =>
    simp only [hname] at h
    split at h
    · next hfind =>
      obtain rfl := Except.ok.inj h
      exact List.mem_of_find?_eq_some hfind
    · cases h
  | none =>
    simp only [hname] at h
    split at h
    · cases h
    · next hsingle =>
      obtain rfl := Except.ok.inj h
      rw [hsingle]
      exact List.mem_singleton_self _
    · cases h

/-- **What becomes of the types that the world lists.** When a run over a graph
returns, a type that the world lists, at most once in a direction, is declared
at its owner if the owner is an interface that lists it once, as no other
does. If the owner is a world, the type is declared at it exactly when it is in
its place and no generated interface lists it. -/
theorem world_types_declared {document : Document} {g : Graph} {o : Options} {world : World}
    {ms : List Module} (hdocument : Graph.ofDocument document = .ok g)
    (hworld : selectWorld g o = .ok world) (hrun : generateModules g o = .ok ms) :
    let a := Assignment.ofOptions g o world
    ∀ id, (∃ d, a.ListsType d id) → (∀ d, a.timesListed d id ≤ 1) →
      (∀ j, g.OwnsType (.interface j) id → g.ListedOnceBy j id →
        a.DeclaredAt ms (.interface j) id) ∧
      ∀ k, g.OwnsType (.world k) id → (a.DeclaredAt ms (.world k) id ↔
        a.InPlace k id ∧ ¬ a.ListedByInterface ms id) := by
  intro a id hlisted honce
  have orderly : a.graph.Orderly := Graph.orderly_of_ofDocument hdocument
  obtain ⟨world', s, hworld', h, rfl⟩ := finished_of_generateModules orderly hrun
  obtain rfl : world = world' := Except.ok.inj (hworld.symm.trans hworld')
  refine ⟨fun j howns hlistedOnce => ?_, fun k howns => ?_⟩
  · have hasked := h.asked_of_listed howns hlisted
    exact h.declaredAt_interface howns hlistedOnce (h.opened hasked.noted)
  · have hmem : a.world ∈ a.graph.worlds := mem_of_selectWorld hworld
    constructor
    · exact fun hdeclared => h.inPlace_of_declaredAt hmem howns hlisted hdeclared
    · rintro ⟨hinPlace, hfree⟩
      exact h.declaredAt_of_inPlace hmem howns hlisted honce hinPlace hfree

/-! ## A type that is passed over -/

/-- A world that imports one of its types and exports another. -/
def halvesDocument : Document :=
  .object [
    (.text "packages", .list [.object [(.text "name", .string "a:b")]]),
    (.text "types", .list [
      .object [(.text "name", .string "p"), (.text "owner", .object [(.text "world", .int 0)]),
        (.text "kind", .object [(.text "record", .object [(.text "fields", .list [])])])],
      .object [(.text "name", .string "q"), (.text "owner", .object [(.text "world", .int 0)]),
        (.text "kind", .object [(.text "record", .object [(.text "fields", .list [])])])]]),
    (.text "worlds", .list [.object [(.text "name", .string "w"), (.text "package", .int 0),
      (.text "imports", .object [(.text "p", .object [(.text "type", .int 0)])]),
      (.text "exports", .object [(.text "q", .object [(.text "type", .int 1)])])]])]

/-- The world of that document. -/
def halvesWorld : World where
  id := 0
  name := "w"
  package := some 0
  imports := [(.text "p", .type 0)]
  exports := [(.text "q", .type 1)]
  docs := none

/-- The graph of that document. -/
def halvesGraph : Graph where
  packages := [⟨0, ⟨"a", "b", none⟩, [], [], none⟩]
  interfaces := []
  types := [⟨0, some "p", .record [], some (.world 0), none⟩,
    ⟨1, some "q", .record [], some (.world 0), none⟩]
  worlds := [halvesWorld]

/-- The only module of that graph. It is the place of both types. -/
def halvesModule : Module where
  key := .world .imported
  location := ⟨"componentmodel", "w", ["componentmodel", "w"], "package.scala", .imported⟩
  docs := none
  types := [⟨0, "P", none, .record []⟩]

/-- What a run over that graph assigns to modules. -/
def halvesAssignment : Assignment := ⟨halvesGraph, halvesWorld, ⟨["componentmodel"]⟩⟩

/-- The session when both types have been walked. -/
def halvesSession : Session where
  claims := [⟨"componentmodel", "exports", "<exports>"⟩, ⟨"componentmodel", "w", "<world w>"⟩,
    ⟨"componentmodel/w/package.scala", "P", "p"⟩]
  modules := [halvesModule]

/-- The run returns the module without the exported type. -/
theorem generateModules_halves : generateModules halvesGraph {} = .ok [halvesModule] := by
  have hitems : halvesAssignment.items.forM halvesAssignment.generateItem
      { claims := [⟨"componentmodel", "exports", "<exports>"⟩] } = .ok () halvesSession := rfl
  exact generateModules_eq_ok (s := halvesSession) rfl rfl hitems rfl

/-- The imported type is declared at the world, and the exported one is not. -/
theorem world_types_declared_halves :
    Graph.ofDocument halvesDocument = .ok halvesGraph ∧
      selectWorld halvesGraph {} = .ok halvesWorld ∧
      generateModules halvesGraph {} = .ok [halvesModule] ∧
      halvesAssignment.DeclaredAt [halvesModule] (.world 0) 0 := by
  have hdocument : Graph.ofDocument halvesDocument = .ok halvesGraph := rfl
  have hworld : selectWorld halvesGraph {} = .ok halvesWorld := rfl
  refine ⟨hdocument, hworld, generateModules_halves, ?_⟩
  refine ((world_types_declared hdocument hworld generateModules_halves 0
    ⟨.imported, .text "p", .head _⟩ ?_).2 0 ⟨_, rfl, rfl⟩).mpr
    ⟨⟨halvesWorld, rfl, rfl, .inl ?_⟩, ?_⟩
  · intro d
    cases d <;> decide
  · exact ⟨.text "p", .head _⟩
  · rintro ⟨m, hm, j, direction, i, hkey, -⟩
    obtain rfl := List.mem_singleton.mp hm
    cases hkey

/-- **A type that the world lists need not be declared.** The exported type is
located in the import module, where it is not. -/
theorem not_declaredAt_world : ∃ document g o world ms id,
    Graph.ofDocument document = .ok g ∧ selectWorld g o = .ok world ∧
      generateModules g o = .ok ms ∧ (∃ d, (Assignment.ofOptions g o world).ListsType d id) ∧
      (∀ d, (Assignment.ofOptions g o world).timesListed d id ≤ 1) ∧
      g.OwnsType (.world world.id) id ∧
      ¬ (Assignment.ofOptions g o world).DeclaredAt ms (.world world.id) id := by
  refine ⟨halvesDocument, halvesGraph, {}, halvesWorld, _, 1, rfl, rfl, generateModules_halves,
    ⟨.exported, .text "q", .head _⟩, ?_, ⟨_, rfl, rfl⟩, fun hdeclared => ?_⟩
  · intro d
    cases d <;> decide
  · exact absurd hdeclared.1 (by decide)

end ComponentBindings
