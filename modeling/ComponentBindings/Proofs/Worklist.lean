import ComponentBindings.Proofs.Steps
import ComponentBindings.Proofs.WorldTypes
import Mathlib.Data.List.Perm.Subperm

/-!
# Interfaces that are imported for their types

When the items of the world have been walked, some interfaces may wait that
have been referred to and that the world does not list. The last loop takes
one after the other and opens its module, and it may come to refer to further
ones by that. `Assignment.Rounds` tells the loop round by round, to the last
interface or to the first fault.

An interface waits for a reason. That the session remembers none does not
matter: the reason is in the graph, and in the one module that the interface
was noted from (`Assignment.Asks`). Each step of the run is about one module,
so it is enough to see that a step only notes what its own module asks for. The
reason may be less than one expects, though. A type that the world lists brings
up the interface that owns it even if the type has no name and nothing
can refer to it.
-/

namespace ComponentBindings

namespace Assignment

variable {a : Assignment} {orderly : a.graph.Orderly}
  {items : List (Direction × Scalar × WorldItem)} {s s' : Session} {key : ModuleKey} {j : Int}
  {rest js untaken : List Int} {u : Unit} {r : EStateM.Result Fault Session Unit}

/-! ## Who asks for an interface -/

/-- **A module asks for an interface**: it wants it, it is not the module of
that interface, and it is open, unless nothing of the world has been declared
yet. -/
def Asks (a : Assignment) (s : Session) (key : ModuleKey) (j : Int) : Prop :=
  (key ∈ s.opened ∨ ∃ direction, key = .world direction) ∧ key ≠ .interface j .imported ∧
    a.Wants key j

/-- **A session whose interfaces wait**, each once, without a module, and
because a module asks for it. -/
structure Waits (a : Assignment) (s : Session) : Prop where
  /-- No interface waits twice. -/
  nodup : s.pending.Nodup
  /-- None has its module. -/
  closed : ∀ j ∈ s.pending, .interface j .imported ∉ s.opened
  /-- A module asks for each. -/
  asked : ∀ j ∈ s.pending, ∃ key, a.Asks s key j

/-- A module that asks for an interface goes on to do so. -/
theorem Asks.mono (h : a.Asks s key j) (hopened : s.opened ⊆ s'.opened) : a.Asks s' key j :=
  ⟨h.1.imp_left fun hopen => hopened hopen, h.2⟩

/-- Nothing waits at first. -/
theorem waits_of_nil (h : s.pending = []) : a.Waits s where
  nodup := h ▸ List.nodup_nil
  closed _ hj := absurd (h ▸ hj) List.not_mem_nil
  asked _ hj := absurd (h ▸ hj) List.not_mem_nil

/-- **A step about one module keeps what waits**: the interfaces that it notes
are asked for by that module. -/
theorem Waits.step (h : a.Waits s) (hallows : (a.licence key).Allows s s')
    (hopen : key ∈ s'.opened ∨ ∃ direction, key = .world direction)
    (hother : ∀ j ∈ s.pending, key ≠ .interface j .imported) : a.Waits s' := by
  obtain ⟨keys, hkeys, hopens⟩ := hallows.opened
  -- The step opens no module but its own, which is not that of a noted interface.
  have hstays : ∀ j, .interface j .imported ∉ s.opened → key ≠ .interface j .imported →
      .interface j .imported ∉ s'.opened := by
    intro j hclosed hne hmem
    rw [hkeys] at hmem
    cases List.mem_append.mp hmem with
    | inl hmem => exact hclosed hmem
    | inr hmem => exact hne (hopens _ hmem).1.symm
  refine ⟨hallows.nodup h.nodup, fun j hj => ?_, fun j hj => ?_⟩
  · cases hallows.noted j hj with
    | inl hj => exact hstays j (h.closed j hj) (hother j hj)
    | inr hnew => exact hstays j hnew.2 hnew.1.2.1
  · cases hallows.noted j hj with
    | inl hj =>
      obtain ⟨key, hasks⟩ := h.asked j hj
      exact ⟨key, hasks.mono hallows.subset_opened⟩
    | inr hnew => exact ⟨key, hopen, hnew.1.2⟩

/-! ## The items of the world -/

/-- **A run that has walked some items of the world**, with the modules and
the interfaces that it owes to them. -/
structure Walked (a : Assignment) (orderly : a.graph.Orderly)
    (items : List (Direction × Scalar × WorldItem)) (s : Session) : Prop where
  /-- The modules hold what they are to declare so far. -/
  progress : a.Progress orderly NoGrant items s
  /-- The interfaces that wait are asked for. -/
  waits : a.Waits s
  /-- The modules are those of items, and may be open. -/
  opened : ∀ key ∈ s.opened, a.MayOpen key ∧ ∃ item ∈ a.items, keyOfItem item = key

/-- An item is walked. -/
theorem Walked.step {item : Direction × Scalar × WorldItem} (hmem : a.world ∈ a.graph.worlds)
    (h : a.Walked orderly items s) (hitem : item ∈ a.items)
    (hrun : a.generateItem item s = .ok u s') : a.Walked orderly (items ++ [item]) s' := by
  have hallows : (a.licence (keyOfItem item)).Allows s s' :=
    (permits_generateItem hmem hitem).ok (.refl s) hrun
  have hprogress := h.progress.generateItem hitem hrun
  refine ⟨hprogress, h.waits.step hallows ?_ fun j hj hkey => ?_, fun key hkey => ?_⟩
  · obtain ⟨direction, scalar, item⟩ := item
    cases item with
    | interface j =>
      exact .inl (hprogress.listed (List.mem_append_right _ (List.mem_singleton_self _)))
    | function f => exact .inr ⟨direction, rfl⟩
    | type id => exact .inr ⟨direction, rfl⟩
  · -- The world lists the interface of an item, and none that waits.
    have hunlisted : a.lists .imported j = false := (h.progress.kept.coherent.pending j hj).1.1
    obtain ⟨direction, scalar, item⟩ := item
    cases item with
    | interface k =>
      obtain ⟨rfl, rfl⟩ := ModuleKey.interface.inj hkey
      rw [lists_iff.mpr ⟨scalar, hitem⟩] at hunlisted
      cases hunlisted
    | function f => cases hkey
    | type id => cases hkey
  · obtain ⟨keys, hkeys, hopens⟩ := hallows.opened
    rw [hkeys] at hkey
    cases List.mem_append.mp hkey with
    | inl hkey => exact h.opened key hkey
    | inr hkey => exact ⟨(hopens key hkey).2, item, hitem, (hopens key hkey).1.symm⟩

/-- **All items of the world are walked.** -/
theorem walked_of_items (hmem : a.world ∈ a.graph.worlds) {claims : Claims}
    (hexports : a.layout.HoldsExports claims)
    (hrun : a.items.forM a.generateItem { claims } = .ok u s) : a.Walked orderly a.items s := by
  refine forM_keeps (I := fun done s => a.Walked orderly done s)
    (fun _ _ _ _ _ hitem h hstep => h.step hmem hitem hstep) ⟨.start hexports, ?_, ?_⟩ hrun
  · exact waits_of_nil rfl
  · exact fun _ hkey => absurd hkey List.not_mem_nil

/-! ## Rounds -/

/-- **The rounds of the last loop**, with the interfaces that are taken from a
session on and what it comes to. A round takes the interface that has waited
longest, and it fails or opens the module of that interface, which had none. -/
inductive Rounds (a : Assignment) :
    Session → List Int → EStateM.Result Fault Session Unit → Prop
  /-- No interface waits. -/
  | done {s : Session} : s.pending = [] → Rounds a s [] (.ok () s)
  /-- The module of the first one fails. -/
  | fails {s s' : Session} {j : Int} {rest : List Int} {fault : Fault} : s.pending = j :: rest →
    (∀ direction, .interface j direction ∉ s.opened) →
    a.generateInterface j none .imported true { s with pending := rest } = .error fault s' →
      Rounds a s [j] (.error fault s')
  /-- The module of the first one is opened, and the loop goes on. -/
  | opens {s s' : Session} {j : Int} {rest js : List Int}
    {r : EStateM.Result Fault Session Unit} : s.pending = j :: rest →
    (∀ direction, .interface j direction ∉ s.opened) →
    a.generateInterface j none .imported true { s with pending := rest } = .ok () s' →
    s'.opened = s.opened ++ [.interface j .imported] → Rounds a s' js r →
      Rounds a s (j :: js) r

/-- When the items of the world have been walked, the last loop is left. -/
theorem generateAll_of_items {s₀ : Session} (h : a.items.forM a.generateItem s₀ = .ok () s) :
    a.generateAll s₀
      = a.generatePending ((List.range a.graph.interfaces.length).map Int.ofNat) s := by
  unfold generateAll
  simp only [bind, EStateM.bind, h]

/-- A step that opens its module and no other one opens just that. -/
theorem opened_eq_of_allows (hallows : (a.licence key).Allows s s') (hclosed : key ∉ s.opened)
    (hopen : key ∈ s'.opened) (hnodup : s'.opened.Nodup) : s'.opened = s.opened ++ [key] := by
  obtain ⟨keys, hkeys, hopens⟩ := hallows.opened
  rw [hkeys] at hopen hnodup ⊢
  have hmem : key ∈ keys := (List.mem_append.mp hopen).resolve_left hclosed
  have hsame : keys = List.replicate keys.length key :=
    List.eq_replicate_of_mem fun k hk => (hopens k hk).1
  have hle : keys.length ≤ 1 := by
    rw [← List.nodup_replicate (a := key), ← hsame]
    exact hnodup.of_append_right
  obtain ⟨k, rfl⟩ := List.length_eq_one_iff.mp (le_antisymm hle (List.length_pos_of_mem hmem))
  rw [List.mem_singleton.mp hmem]

/-- What waits when an interface has been taken. -/
theorem Waits.taken (h : a.Waits s) (hpending : s.pending = j :: rest) :
    a.Waits { s with pending := rest } ∧ j ∉ rest := by
  have hnodup := h.nodup
  rw [hpending] at hnodup
  obtain ⟨hj, hrest⟩ := List.nodup_cons.mp hnodup
  have hmem : ∀ k ∈ rest, k ∈ s.pending := fun k hk => hpending ▸ List.mem_cons_of_mem j hk
  exact ⟨⟨hrest, fun k hk => h.closed k (hmem k hk), fun k hk => h.asked k (hmem k hk)⟩, hj⟩

/-- **A round that succeeds** opens the one module that it is about, and what
waits then is asked for. -/
theorem Progress.round (h : a.Progress orderly NoGrant items s) (hwaits : a.Waits s)
    (hpending : s.pending = j :: rest)
    (hrun : a.generateInterface j none .imported true { s with pending := rest } = .ok u s') :
    a.Progress orderly NoGrant items s' ∧ a.Waits s' ∧
      s'.opened = s.opened ++ [.interface j .imported] := by
  have hj : j ∈ s.pending := hpending ▸ List.mem_cons_self
  obtain ⟨hrest, hfresh⟩ := hwaits.taken hpending
  have hallows := (permits_take (h.kept.coherent.pending j hj).1).ok (.refl _) hrun
  have herase : s.pending.erase j = rest := by simp [hpending]
  obtain ⟨hprogress, -, hopen⟩ := h.take hj (herase.symm ▸ hrun)
  refine ⟨hprogress, hrest.step hallows (.inl hopen) fun k hk hkey => ?_, ?_⟩
  · obtain ⟨rfl, -⟩ := ModuleKey.interface.inj hkey
    exact hfresh hk
  · have hopened : s'.opened = ({ s with pending := rest } : Session).opened ++ _ :=
      opened_eq_of_allows hallows (hwaits.closed j hj) hopen hprogress.kept.nodup
    exact hopened

/-- An interface that the world does not list has no module but the one for its
types. -/
theorem Progress.closed_of_unlisted (h : a.Progress orderly NoGrant items s)
    (hunlisted : a.Unlisted j) (hclosed : .interface j .imported ∉ s.opened)
    (direction : Direction) : .interface j direction ∉ s.opened := by
  intro hopen
  obtain ⟨m, hm, hkey⟩ := List.mem_map.mp hopen
  have hplaced := h.kept.placed m hm
  rw [hkey] at hplaced
  exact hclosed (hplaced.eq_imported hunlisted ▸ hopen)

/-- **The last loop ends**, since every round takes one interface off those that
can still be taken, and each that waits can be. -/
theorem Progress.rounds (h : a.Progress orderly NoGrant items s) (hwaits : a.Waits s)
    (hleft : a.Covers untaken s) (hnodup : untaken.Nodup) :
    ∃ js, js.Nodup ∧ js ⊆ untaken ∧ a.Rounds s js (a.generatePending untaken s) := by
  induction hn : untaken.length using Nat.strong_induction_on generalizing untaken s with
  | _ n ih =>
    cases hpending : s.pending with
    | nil =>
      rw [generatePending_of_nil hpending]
      exact ⟨[], List.nodup_nil, List.nil_subset _, .done hpending⟩
    | cons j rest =>
      have hj : j ∈ s.pending := hpending ▸ List.mem_cons_self
      obtain ⟨hunlisted, hfound⟩ := h.kept.coherent.pending j hj
      have hclosed := h.closed_of_unlisted hunlisted (hwaits.closed j hj)
      have htaken : j ∈ untaken := (hleft j hfound).resolve_right (hwaits.closed j hj)
      cases hround : a.generateInterface j none .imported true { s with pending := rest } with
      | error fault s' =>
        rw [generatePending_of_cons hpending htaken, bind_eq_error.mpr (.inl hround)]
        refine ⟨[j], List.nodup_singleton j, ?_, .fails hpending hclosed hround⟩
        exact List.cons_subset.mpr ⟨htaken, List.nil_subset _⟩
      | ok u s' =>
        obtain ⟨hprogress, hwaits', hopened⟩ := h.round hwaits hpending hround
        have hleft' : a.Covers (untaken.erase j) s' := by
          refine hleft.take ?_ ?_
          · rw [hopened]
            exact List.subset_append_left _ _
          · rw [hopened]
            exact List.mem_append_right _ (List.mem_singleton_self _)
        have hlength := List.length_erase_of_mem htaken
        have hpos := List.length_pos_of_mem htaken
        obtain ⟨js, hjs, hsub, hrounds⟩ :=
          ih _ (by omega) hprogress hwaits' hleft' (hnodup.erase j) rfl
        refine ⟨j :: js, List.nodup_cons.mpr ⟨?_, hjs⟩, ?_, ?_⟩
        · exact fun hmem => hnodup.not_mem_erase (hsub hmem)
        · exact List.cons_subset.mpr ⟨htaken, List.Subset.trans hsub List.erase_subset⟩
        · rw [generatePending_of_round hpending htaken hround]
          exact .opens hpending hclosed hround hopened hrounds

/-- **When the items of the world have been walked**, a run comes to what the
rounds of the last loop come to. -/
theorem Walked.rounds {s₀ : Session} (h : a.Walked orderly a.items s)
    (hitems : a.items.forM a.generateItem s₀ = .ok () s) :
    ∃ js, js.Nodup ∧ js.length ≤ a.graph.interfaces.length ∧
      a.Rounds s js (a.generateAll s₀) := by
  have hnodup : ((List.range a.graph.interfaces.length).map Int.ofNat).Nodup :=
    List.nodup_range.map Int.ofNat_injective
  obtain ⟨js, hjs, hsub, hloop⟩ := h.progress.rounds h.waits covers_all hnodup
  refine ⟨js, hjs, ?_, generateAll_of_items hitems ▸ hloop⟩
  have hle := (List.subperm_of_subset hjs hsub).length_le
  rwa [List.length_map, List.length_range] at hle

/-- **The interfaces that have been taken** are not listed, they are asked for,
and their modules stand in the order in which they were taken, behind those
that there were. -/
theorem Rounds.taken (hrounds : a.Rounds s js r) (h : a.Progress orderly NoGrant items s)
    (hwaits : a.Waits s) (hr : r = .ok u s') :
    s'.opened = s.opened ++ js.map (.interface · .imported) ∧
      ∀ j ∈ js, a.Unlisted j ∧ ∃ key, a.Asks s' key j := by
  induction hrounds with
  | done hpending =>
    obtain ⟨-, rfl⟩ := EStateM.Result.ok.inj hr
    exact ⟨(List.append_nil _).symm, fun _ hj => absurd hj List.not_mem_nil⟩
  | fails _ _ _ => cases hr
  | @opens s s₁ j rest js r hpending _ hround _ _ ih =>
    obtain ⟨hprogress, hwaits₁, hopened⟩ := h.round hwaits hpending hround
    obtain ⟨hfinal, hjs⟩ := ih hprogress hwaits₁ hr
    have hall : s'.opened = s.opened ++ (j :: js).map (.interface · .imported) := by
      rw [hfinal, hopened, List.append_assoc]
      rfl
    refine ⟨hall, fun k hk => ?_⟩
    cases List.mem_cons.mp hk with
    | inl hk =>
      have hj : j ∈ s.pending := hpending ▸ List.mem_cons_self
      obtain ⟨key, hasks⟩ := hwaits.asked j hj
      refine hk ▸ ⟨(h.kept.coherent.pending j hj).1, key, hasks.mono ?_⟩
      rw [hall]
      exact List.subset_append_left _ _
    | inr hk => exact hjs k hk

/-! ## What brings up an interface -/

/-- A function that a module is to declare belongs to no resource. -/
theorem isFreestanding_of_mem {f : Function} (hf : f ∈ (a.contentAfter items key).functions) :
    f.isFreestanding = true := by
  cases key with
  | interface j direction => exact (mem_functions_interface.mp hf).2
  | world direction => exact (mem_functions_world.mp hf).2

/-- What can be referred to has a name. -/
theorem named_of_wording {here : Location} {id : Int} (h : (a.wording here id).isSome) :
    ∃ t, a.graph.typeDef id = .ok t ∧ t.name.isSome := by
  obtain ⟨text, htext⟩ := Option.isSome_iff_exists.mp h
  obtain ⟨t, _, ht, -⟩ := wording_eq_some_iff.mp htext
  exact ⟨t, ht, isSome_name_of_wording ht htext⟩

/-- **What a module is written with stands in it.** -/
theorem Finished.written (h : a.Finished orderly s) {m : Module} (hm : m ∈ s.modules) :
    ∀ ref ∈ a.refsAt m.key, ref.WrittenIn a.graph (a.wording m.location) m.expressions := by
  obtain ⟨ds, hds⟩ := h.declares_wording hm
  intro ref href
  cases List.mem_append.mp href with
  | inl href =>
    obtain ⟨id, hid, href⟩ := List.mem_flatMap.mp href
    obtain ⟨d, hd, t, site, ht, -, hdecl⟩ := exists_of_mem_left hds.declared hid
    rw [ht] at href
    refine (hdecl.body.written (fun _ => named_of_wording) ref href).mono fun e he => ?_
    exact List.mem_append_left _ (List.mem_flatMap.mpr ⟨d, hds.perm.mem_iff.mpr hd, he⟩)
  | inr href =>
    obtain ⟨f, hf, href⟩ := List.mem_flatMap.mp href
    obtain ⟨d, hd, site, -, hfunction⟩ := exists_of_mem_left hds.functions hf
    refine (hfunction.written (isFreestanding_of_mem hf) ref href).mono fun e he => ?_
    exact List.mem_append_right _ (List.mem_flatMap.mpr ⟨d, hd, he⟩)

/-- **What brings up an interface** that the world does not list: it owns a type
that the world lists, or a type with a name that another module mentions. -/
def BroughtUp (a : Assignment) (ms : List Module) (j : Int) : Prop :=
  ∃ id t, a.graph.typeDef id = .ok t ∧ t.owner = some (.interface j) ∧
    ((∃ direction, a.ListsType direction id) ∨
      t.name.isSome = true ∧ ∃ m ∈ ms, m.key ≠ .interface j .imported ∧ m.Mentions id)

/-- **A module that asks for an interface brings it up.** -/
theorem Finished.broughtUp (h : a.Finished orderly s) (hasks : a.Asks s key j) :
    a.BroughtUp s.modules j := by
  obtain ⟨hopen, hother, id, t, ht, howner, hreason⟩ := hasks
  refine ⟨id, t, ht, howner, ?_⟩
  cases hreason with
  | inl hlisted =>
    obtain ⟨direction, scalar, hitem⟩ := hlisted
    exact .inl ⟨direction, scalar, mem_items.mp hitem⟩
  | inr hnamed =>
    obtain ⟨hname, hnames⟩ := hnamed
    refine .inr ⟨hname, ?_⟩
    -- A module of the world that was never opened has nothing to name a type with.
    have hopen : key ∈ s.opened := by
      by_contra hclosed
      obtain ⟨direction, rfl⟩ := hopen.resolve_left hclosed
      obtain ⟨ref, href, -⟩ := hnames
      rw [refsAt, h.progress.world hclosed] at href
      exact absurd href List.not_mem_nil
    obtain ⟨m, hm, rfl⟩ := List.mem_map.mp hopen
    exact ⟨m, hm, hother, exists_names_of_written (h.written hm) hnames⟩

end Assignment

/-- **The modules of interfaces that are not listed.** Once a run over a graph
has walked the items of the world, it comes to what the rounds of the last loop
come to, of which there are at most as many as there are interfaces, each for
another one. When the run returns, the modules of the items of the world come
first. Behind them are the import modules of interfaces that the world does not
list, and each of these has been brought up. -/
theorem rounds_of_generateWorld {document : Document} {g : Graph} {o : Options} {world : World}
    (hdocument : Graph.ofDocument document = .ok g) (hworld : selectWorld g o = .ok world) :
    let a := Assignment.ofOptions g o world
    (∀ claims s, Layout.start o.baseSegments [] = .ok a.layout claims →
      a.items.forM a.generateItem { claims } = .ok () s →
        ∃ js, js.Nodup ∧ js.length ≤ g.interfaces.length ∧
          a.Rounds s js (generateWorld g o world {})) ∧
    ∀ ms, generateModules g o = .ok ms → ∃ (keys : List ModuleKey) (js : List Int),
      ms.map Module.key = keys ++ js.map (.interface · .imported) ∧
        (∀ key ∈ keys, ∃ item ∈ a.items, Assignment.keyOfItem item = key) ∧
        ∀ j ∈ js, a.Unlisted j ∧ a.BroughtUp ms j := by
  intro a
  have orderly : a.graph.Orderly := Graph.orderly_of_ofDocument hdocument
  have hmem : a.world ∈ a.graph.worlds := mem_of_selectWorld hworld
  have hrounds : ∀ claims s, Layout.start o.baseSegments [] = .ok a.layout claims →
      a.items.forM a.generateItem { claims } = .ok () s →
        a.Walked orderly a.items s ∧ ∃ js, js.Nodup ∧ js.length ≤ g.interfaces.length ∧
          a.Rounds s js (generateWorld g o world {}) := by
    intro claims s hstart hitems
    have hwalked : a.Walked orderly a.items s :=
      Assignment.walked_of_items hmem (Layout.holdsExports_of_start hstart) hitems
    rw [generateWorld_eq hstart]
    exact ⟨hwalked, hwalked.rounds hitems⟩
  refine ⟨fun claims s hstart hitems => (hrounds claims s hstart hitems).2, fun ms hrun => ?_⟩
  obtain ⟨world', claims, s', hworld', hstart, hgenerate, rfl⟩ := generateModules_iff.mp hrun
  obtain rfl : world = world' := Except.ok.inj (hworld.symm.trans hworld')
  obtain ⟨_, s, hitems, -⟩ := bind_eq_ok.mp hgenerate
  obtain ⟨hwalked, js, -, -, hloop⟩ := hrounds claims s hstart hitems
  rw [generateWorld_eq hstart, hgenerate] at hloop
  have hfinished : a.Finished orderly s' :=
    Assignment.finished_of_generateAll (Layout.holdsExports_of_start hstart) hgenerate
  obtain ⟨hopened, hjs⟩ := hloop.taken hwalked.progress hwalked.waits rfl
  refine ⟨s.opened, js, hopened, fun key hkey => (hwalked.opened key hkey).2, fun j hj => ?_⟩
  obtain ⟨hunlisted, key, hasks⟩ := hjs j hj
  exact ⟨hunlisted, hfinished.broughtUp hasks⟩

/-! ## A type without a name brings up two interfaces -/

/-- A world that imports a list that an interface owns. The interface also owns
a handle on a resource of a second interface. -/
def chainDocument : Document :=
  .object [
    (.text "packages", .list [.object [(.text "name", .string "a:b")]]),
    (.text "interfaces", .list [
      .object [(.text "name", .string "m"), (.text "package", .int 0),
        (.text "types", .object [(.text "r", .int 0)])],
      .object [(.text "name", .string "n"), (.text "package", .int 0),
        (.text "types", .object [(.text "s", .int 1)])]]),
    (.text "types", .list [
      .object [(.text "name", .string "r"), (.text "owner", .object [(.text "interface", .int 0)]),
        (.text "kind", .object [(.text "handle", .object [(.text "own", .int 1)])])],
      .object [(.text "name", .string "s"), (.text "owner", .object [(.text "interface", .int 1)]),
        (.text "kind", .string "resource")],
      .object [(.text "owner", .object [(.text "interface", .int 0)]),
        (.text "kind", .object [(.text "list", .string "u8")])]]),
    (.text "worlds", .list [.object [(.text "name", .string "w"), (.text "package", .int 0),
      (.text "imports", .object [(.text "t", .object [(.text "type", .int 2)])])]])]

/-- The world of that document. -/
def chainWorld : World where
  id := 0
  name := "w"
  package := some 0
  imports := [(.text "t", .type 2)]
  exports := []
  docs := none

/-- The graph of that document. -/
def chainGraph : Graph where
  packages := [⟨0, ⟨"a", "b", none⟩, [], [], none⟩]
  interfaces := [⟨0, some "m", some 0, [(.text "r", 0)], [], none⟩,
    ⟨1, some "n", some 0, [(.text "s", 1)], [], none⟩]
  types := [⟨0, some "r", .handle 1 false, some (.interface 0), none⟩,
    ⟨1, some "s", .resource, some (.interface 1), none⟩,
    ⟨2, none, .list (.primitive .u8), some (.interface 0), none⟩]
  worlds := [chainWorld]

/-- The module of the interface that owns the list. -/
def chainOwner : Module where
  key := .interface 0 .imported
  location := ⟨"componentmodel.a.b", "m", ["componentmodel", "a", "b"], "m.scala", .imported⟩
  docs := none
  types := [⟨0, "R", none, .aliasOf ⟨.handle 1, "componentmodel.a.b.n.S"⟩⟩]

/-- The module of the other interface. -/
def chainTarget : Module where
  key := .interface 1 .imported
  location := ⟨"componentmodel.a.b", "n", ["componentmodel", "a", "b"], "n.scala", .imported⟩
  docs := none
  resources := [⟨1, "S", none, .resource (.text "a:b/n") "s" [] []⟩]

/-- What a run over that graph assigns to modules. -/
def chainAssignment : Assignment := ⟨chainGraph, chainWorld, ⟨["componentmodel"]⟩⟩

/-- The session when the list has been walked: the first interface waits. -/
def chainNoted : Session where
  claims := [⟨"componentmodel", "exports", "<exports>"⟩, ⟨"componentmodel", "a", "a"⟩,
    ⟨"componentmodel.a", "b", "b"⟩, ⟨"componentmodel.a.b", "m", "m"⟩,
    ⟨"componentmodel.a.b:identity", "m", "a:b/m"⟩, ⟨"componentmodel", "w", "<world w>"⟩]
  pending := [0]

/-- The session after the first round: the second interface waits. -/
def chainOpened : Session where
  claims := chainNoted.claims ++ [⟨"componentmodel/a/b/m.scala", "R", "r"⟩,
    ⟨"componentmodel.a.b", "n", "n"⟩, ⟨"componentmodel.a.b:identity", "n", "a:b/n"⟩]
  references := [((1, some chainOwner.location), "componentmodel.a.b.n.S")]
  modules := [chainOwner]
  pending := [1]

/-- The session after the second round. -/
def chainSession : Session where
  claims := chainOpened.claims ++ [⟨"componentmodel/a/b/n.scala", "S", "s"⟩,
    ⟨"componentmodel/a/b/n.scala.S", "close", "<drop>"⟩]
  references := chainOpened.references
  modules := [chainOwner, chainTarget]

/-- **The run returns two modules**, each from a round of the last loop. -/
theorem generateModules_chain :
    generateModules chainGraph {} = .ok [chainOwner, chainTarget] := by
  have hitems : chainAssignment.items.forM chainAssignment.generateItem
      { claims := [⟨"componentmodel", "exports", "<exports>"⟩] } = .ok () chainNoted := rfl
  have howner : chainAssignment.generateInterface 0 none .imported true
      { chainNoted with pending := [] } = .ok () chainOpened := rfl
  have htarget : chainAssignment.generateInterface 1 none .imported true
      { chainOpened with pending := [] } = .ok () chainSession := rfl
  refine generateModules_iff.mpr ⟨chainWorld, _, chainSession, rfl, rfl, ?_, rfl⟩
  refine (Assignment.generateAll_of_items hitems).trans ?_
  rw [Assignment.generatePending_of_round rfl (by decide) howner,
    Assignment.generatePending_of_round rfl (by decide) htarget,
    Assignment.generatePending_of_nil rfl]

/-- The run has two rounds, and both interfaces have been brought up. -/
theorem rounds_of_generateWorld_chain :
    Graph.ofDocument chainDocument = .ok chainGraph ∧
      selectWorld chainGraph {} = .ok chainWorld ∧
      generateModules chainGraph {} = .ok [chainOwner, chainTarget] ∧
      chainAssignment.BroughtUp [chainOwner, chainTarget] 0 ∧
      chainAssignment.BroughtUp [chainOwner, chainTarget] 1 := by
  have hdocument : Graph.ofDocument chainDocument = .ok chainGraph := rfl
  have hworld : selectWorld chainGraph {} = .ok chainWorld := rfl
  obtain ⟨keys, js, hms, hkeys, hjs⟩ :=
    (rounds_of_generateWorld hdocument hworld).2 _ generateModules_chain
  -- The only item of the world is a type, so no interface is among the first modules.
  have htaken : ∀ j, .interface j .imported ∈ [chainOwner, chainTarget].map Module.key →
      j ∈ js := by
    intro j hj
    rw [hms] at hj
    cases List.mem_append.mp hj with
    | inl hj =>
      obtain ⟨item, hitem, hkey⟩ := hkeys _ hj
      obtain rfl := List.mem_singleton.mp (show item ∈ [_] from hitem)
      cases hkey
    | inr hj =>
      obtain ⟨k, hk, heq⟩ := List.mem_map.mp hj
      obtain ⟨rfl, -⟩ := ModuleKey.interface.inj heq
      exact hk
  refine ⟨hdocument, hworld, generateModules_chain, ?_, ?_⟩
  · exact (hjs 0 (htaken 0 (.head _))).2
  · exact (hjs 1 (htaken 1 (.tail _ (.head _)))).2

/-- **A type without a name brings up an interface.** No named type of the
interface is listed by the world or mentioned by another module. -/
theorem not_named_of_unlisted : ∃ document g o world ms j,
    Graph.ofDocument document = .ok g ∧ selectWorld g o = .ok world ∧
      generateModules g o = .ok ms ∧ (∃ m ∈ ms, m.key = .interface j .imported) ∧
      (Assignment.ofOptions g o world).Unlisted j ∧
      ¬ ∃ id t, g.typeDef id = .ok t ∧ t.owner = some (.interface j) ∧ t.name.isSome = true ∧
        ((∃ m ∈ ms, m.key ≠ .interface j .imported ∧ m.Mentions id) ∨
          ∃ direction, (Assignment.ofOptions g o world).ListsType direction id) := by
  refine ⟨chainDocument, chainGraph, {}, chainWorld, _, 0, rfl, rfl, generateModules_chain,
    ⟨chainOwner, .head _, rfl⟩, ⟨rfl, rfl⟩, ?_⟩
  rintro ⟨id, t, ht, howner, hname, ⟨m, hm, hkey, e, he, -⟩ | ⟨direction, key, hlisted⟩⟩
  · -- The other module has nothing that a type could be mentioned in.
    rcases List.mem_pair.mp hm with rfl | rfl
    · exact hkey rfl
    · exact absurd he List.not_mem_nil
  · cases direction with
    | imported =>
      obtain ⟨-, hid⟩ := Prod.mk.inj (List.mem_singleton.mp
        (show (key, WorldItem.type id) ∈ [(.text "t", .type 2)] from hlisted))
      obtain rfl := WorldItem.type.inj hid
      obtain rfl := Except.ok.inj (show .ok chainGraph.types[2] = Except.ok t from ht)
      cases hname
    | exported => exact absurd hlisted List.not_mem_nil

end ComponentBindings
