import ComponentBindings.Proofs.Mirrored

/-!
# The order of independent declarations

What a run generates does not depend on the order in which interfaces list
their types and the functions that stand on their own
(`generateModules_reordered`). Whether it succeeds does not depend on it
either, and this is not plain to see: declarations share the claims to names,
the texts that have been written before, and the list of interfaces that are
still to be generated.

The run over the other graph is led along the first. While the items of the
world are walked, the two keep in step (`Assignment.mirrors_items`). After
that they may part. The interfaces that wait have been noted in another order,
and so they are generated in another order; but whatever waits in the second
run has its module in the first one, and what has been generated there can be
generated here, at any time (`Assignment.Backed`). So the second run succeeds,
and each of its modules is one of the first (`Assignment.generateAll_withGraph`).
The roles may be exchanged, and hence they have the same modules.
-/

namespace ComponentBindings

/-- **A session that echoes another one**: each of its modules is one of the
other, in some order. -/
def Session.Echoes (t all : Session) : Prop :=
  ∀ m' ∈ t.modules, ∃ m ∈ all.modules, m.Reorders m'

namespace Assignment

open Placement

variable {a : Assignment} {orderly : a.graph.Orderly} {all : Session} {s s' t : Session} {j : Int}

/-! ## Interfaces that wait -/

/-- A module that is open is not generated again. -/
theorem generateInterface_of_open {listed : Option Scalar} {direction : Direction}
    {typesOnly : Bool} (hopen : .interface j direction ∈ s.opened) :
    a.generateInterface j listed direction typesOnly s = .ok () s := by
  unfold generateInterface
  refine bind_eq_ok.mpr ⟨s, s, get_eq_ok.mpr ⟨rfl, rfl⟩, ?_⟩
  rw [if_pos (by simpa [Session.opened] using hopen)]
  rfl

/-- Tables stay right when an interface is taken whose module is open in the
end. -/
theorem retraced_take (h : (a.retraced orderly all).Coherent s)
    (hopen : .interface j .imported ∈ all.opened) :
    (a.retraced orderly all).Coherent { s with pending := s.pending.erase j } := by
  refine h.transfer rfl rfl rfl rfl (fun k hk => h.pending k (List.erase_subset hk))
    fun o ho => ⟨?_, ho.held⟩
  cases o with
  | world _ => trivial
  | interface k =>
    refine ho.noted.imp id (.imp id ?_)
    rintro (hk | hk)
    · by_cases heq : k = j
      · exact .inr (heq ▸ hopen)
      · exact .inl ((List.mem_erase_of_ne heq).mpr hk)
    · exact .inr hk

/-- Taking an interface leaves less to be redeemed. -/
theorem within_take (h : s.Within all) :
    ({ s with pending := s.pending.erase j } : Session).Within all :=
  ⟨h.claims, h.opened, fun k hk => h.pending k (List.erase_subset hk)⟩

/-- The key of a module that is imported for its types. -/
def pendingKey (j : Int) (key : ModuleKey) : Bool := key = .interface j .imported

/-- A session in which a module is not open has none with its key. -/
theorem among_pendingKey (hclosed : .interface j .imported ∉ s.opened) :
    s.among (pendingKey j) = [] := by
  refine List.filter_eq_nil_iff.mpr fun m hm => ?_
  have hne : m.key ≠ .interface j .imported := fun heq => hclosed (heq ▸ List.mem_map_of_mem hm)
  simpa [pendingKey] using hne

/-- A module is the one that is imported for its types, or one of the others. -/
theorem mem_modules_iff {m : Module} (K : ModuleKey → Bool) :
    m ∈ s.modules ↔ m ∈ s.among K ∨ m ∈ s.among (!K ·) := by
  cases hkey : K m.key <;> simp [Session.among, hkey]

variable {g : Graph}

/-- **An interface that can be generated for its types at any time**: the run
over the other graph may take it whenever it comes to it, and echoes the first
run then. -/
def Backed (a : Assignment) (orderly : a.graph.Orderly) (g : Graph) (all : Session) (j : Int) :
    Prop :=
  ∀ t, (a.retraced orderly all).Coherent t → t.Within all → .interface j .imported ∉ t.opened →
    ∃ t', (a.withGraph g).generateInterface j none .imported true t = .ok () t' ∧
      (a.retraced orderly all).Coherent t' ∧ t'.Within all ∧ t.opened ⊆ t'.opened ∧
      (t.Echoes all → t'.Echoes all)

/-- **Whatever is taken is backed.** The first run generates a module, and
touches no other. -/
theorem backed_of_generateInterface (h : a.graph.Reordered g)
    (hs : (a.retraced orderly all).Coherent s) (hclosed : .interface j .imported ∉ s.opened)
    {u : Unit} (hrun : a.generateInterface j none .imported true s = .ok u s') :
    (a.retraced orderly all).Coherent s' ∧ s.modules ⊆ s'.modules ∧
      (∀ key ∈ s'.opened, key ∈ s.opened ∨ key = .interface j .imported) ∧
      (s'.Within all → s'.modules ⊆ all.modules → a.Backed orderly g all j) := by
  have hmirrors : (a.retraced orderly all).Mirrors all (pendingKey j)
      (a.generateInterface j none .imported true)
      ((a.withGraph g).generateInterface j none .imported true) :=
    mirrors_generateInterface h j none .imported true (by simp [pendingKey])
  obtain ⟨hs', -, hothers, hmirror⟩ := hmirrors s u s' hs hrun
  -- What was there is among the others, which stay as they are.
  have hkept : ∀ {s s' : Session}, .interface j .imported ∉ s.opened →
      s'.among (!pendingKey j ·) = s.among (!pendingKey j ·) → s.modules ⊆ s'.modules := by
    intro s s' hclosed hothers m hm
    rcases (mem_modules_iff (pendingKey j)).mp hm with hm | hm
    · rw [among_pendingKey hclosed] at hm
      exact absurd hm List.not_mem_nil
    · exact (mem_modules_iff (pendingKey j)).mpr (.inr (hothers ▸ hm))
  refine ⟨hs', hkept hclosed hothers, ?_, fun hwithin hmodules t ht hwithint hclosedt => ?_⟩
  · intro key hkey
    obtain ⟨m, hm, rfl⟩ := List.mem_map.mp hkey
    rcases (mem_modules_iff (pendingKey j)).mp hm with hm | hm
    · exact .inr (by simpa [pendingKey] using (List.mem_filter.mp hm).2)
    · exact .inl (List.mem_map_of_mem ((mem_modules_iff (pendingKey j)).mpr (.inr (hothers ▸ hm))))
  · have halike : s.Alike (pendingKey j) t := by
      unfold Session.Alike
      rw [among_pendingKey hclosed, among_pendingKey hclosedt]
      exact .nil
    obtain ⟨t', hrun', ht', hwithin', hotherst, halike'⟩ := hmirror hwithin t ht hwithint halike
    refine ⟨t', hrun', ht', hwithin', List.map_subset _ (hkept hclosedt hotherst),
      fun hechoes m' hm' => ?_⟩
    rcases (mem_modules_iff (pendingKey j)).mp hm' with hm' | hm'
    · obtain ⟨m, hm, hreorders⟩ := exists_of_mem_right halike' hm'
      exact ⟨m, hmodules ((mem_modules_iff (pendingKey j)).mpr (.inl hm)), hreorders⟩
    · exact hechoes m' ((mem_modules_iff (pendingKey j)).mpr (.inr (hotherst ▸ hm')))

/-- **The last loop of a run backs all that it opens.** -/
theorem backed_of_generatePending (h : a.graph.Reordered g) {untaken : List Int}
    {items : List (Direction × Scalar × WorldItem)} (hprogress : a.Progress orderly NoGrant items s)
    (hleft : a.Covers untaken s) (hs : (a.retraced orderly all).Coherent s) {u : Unit}
    (hrun : a.generatePending untaken s = .ok u all) :
    s.modules ⊆ all.modules ∧ ∀ j, .interface j .imported ∈ all.opened →
      .interface j .imported ∈ s.opened ∨ a.Backed orderly g all j := by
  induction untaken, s using generatePending_induction with
  | finished hfind =>
    rw [generatePending_of_none hfind] at hrun
    cases hrun
    exact ⟨List.Subset.refl _, fun j hj => .inl hj⟩
  | @round untaken s j hfind hj hwaits ih =>
    rw [generatePending_of_some hfind] at hrun
    obtain ⟨_, s₁, htake, hrest⟩ := bind_eq_ok.mp hrun
    obtain ⟨hprogress₁, hs₁, hopen⟩ := hprogress.take hwaits htake
    have hleft₁ := hleft.take hs₁.opened hopen
    -- What is left to do redeems the module that has just been opened.
    obtain ⟨-, hwithin, -⟩ := hprogress₁.generatePending hleft₁ hrest
    have htaken := retraced_take hs (hwithin.opened hopen)
    by_cases hopened : .interface j .imported ∈ s.opened
    · -- The module is open already, and nothing is generated.
      obtain ⟨-, rfl⟩ := EStateM.Result.ok.inj
        (htake.symm.trans (generateInterface_of_open hopened))
      obtain ⟨hmodules, hall⟩ := ih _ hprogress₁ hleft₁ htaken hrest
      exact ⟨hmodules, hall⟩
    · obtain ⟨hcoherent₁, hkept, honly, hbacked⟩ :=
        backed_of_generateInterface h htaken hopened htake
      obtain ⟨hmodules, hall⟩ := ih s₁ hprogress₁ hleft₁ hcoherent₁ hrest
      refine ⟨List.Subset.trans hkept hmodules, fun k hk => ?_⟩
      rcases hall k hk with hk | hk
      · rcases honly _ hk with hk | hk
        · exact .inl hk
        · obtain rfl : k = j := by simpa using hk
          exact .inr (hbacked hwithin hmodules)
      · exact .inr hk

/-- **The last loop of the other run succeeds** if all that it may come to is
open or backed. -/
theorem generatePending_withGraph {untaken : List Int} (ht : (a.retraced orderly all).Coherent t)
    (hwithin : t.Within all) (hechoes : t.Echoes all)
    (hbacked : ∀ j, .interface j .imported ∈ all.opened →
      .interface j .imported ∈ t.opened ∨ a.Backed orderly g all j) :
    ∃ t', (a.withGraph g).generatePending untaken t = .ok () t' ∧ t'.Echoes all := by
  -- The rounds take the interfaces in an order of their own.
  induction untaken, t using generatePending_induction with
  | finished hfind => exact ⟨_, generatePending_of_none hfind, hechoes⟩
  | @round untaken t j hfind hj hwaits ih =>
    have hopen : .interface j .imported ∈ all.opened := hwithin.pending j hwaits
    have htaken := retraced_take (j := j) ht hopen
    -- The interface has its module, or is backed and gets it.
    obtain ⟨t₁, hrun, ht₁, hwithin₁, hopened₁, hechoes₁⟩ :
        ∃ t₁, (a.withGraph g).generateInterface j none .imported true
            { t with pending := t.pending.erase j } = .ok () t₁ ∧
          (a.retraced orderly all).Coherent t₁ ∧ t₁.Within all ∧ t.opened ⊆ t₁.opened ∧
          t₁.Echoes all := by
      by_cases hopened : .interface j .imported ∈ t.opened
      · exact ⟨_, generateInterface_of_open hopened, htaken, within_take hwithin,
          List.Subset.refl _, hechoes⟩
      · obtain ⟨t₁, hrun, ht₁, hwithin₁, hopened₁, hechoes₁⟩ :=
          (hbacked j hopen).resolve_left hopened _ htaken (within_take hwithin) hopened
        exact ⟨t₁, hrun, ht₁, hwithin₁, hopened₁, hechoes₁ hechoes⟩
    obtain ⟨t', hrest, hechoes'⟩ := ih t₁ ht₁ hwithin₁ hechoes₁ fun k hk =>
      (hbacked k hk).imp (fun hk => hopened₁ hk) id
    rw [generatePending_of_some hfind]
    exact ⟨t', bind_eq_ok.mpr ⟨(), t₁, hrun, hrest⟩, hechoes'⟩

/-! ## Whole runs -/

/-- **A run over the other graph succeeds and echoes the first.** -/
theorem generateAll_withGraph (orderly : a.graph.Orderly) (h : a.graph.Reordered g)
    {claims : Claims} (hexports : a.layout.HoldsExports claims) {u : Unit}
    (hrun : a.generateAll { claims } = .ok u all) :
    ∃ t, (a.withGraph g).generateAll { claims } = .ok () t ∧ t.Echoes all := by
  obtain ⟨_, s₁, hitems, hpending⟩ := bind_eq_ok.mp hrun
  have hprogress : a.Progress orderly NoGrant a.items s₁ := progress_of_items hexports hitems
  obtain ⟨-, hwithin, -⟩ := hprogress.generatePending covers_all hpending
  have hstart : (a.retraced orderly all).Coherent { claims } :=
    Coherent.start.of_tables (.ofClaims List.nil_prefix) rfl rfl fun _ => .inl
  obtain ⟨hs₁, hadvances, -, hmirror⟩ := mirrors_items h _ _ s₁ hstart hitems
  obtain ⟨t₁, hitems', ht₁, hwithin₁, -, halike⟩ :=
    hmirror hwithin _ hstart (hwithin.of_advances hadvances) .nil
  obtain ⟨hmodules, hbacked⟩ := backed_of_generatePending h hprogress covers_all hs₁ hpending
  -- After the items the modules match one by one.
  have hmatch : List.Forall₂ Module.Reorders s₁.modules t₁.modules := by
    simpa [Session.Alike, Session.among] using halike
  have hechoes : t₁.Echoes all := by
    intro m' hm'
    obtain ⟨m, hm, hreorders⟩ := exists_of_mem_right hmatch hm'
    exact ⟨m, hmodules hm, hreorders⟩
  have hopened : t₁.opened = s₁.opened := Module.Reorders.map_key hmatch
  obtain ⟨t, hpending', hechoes'⟩ : ∃ t, (a.withGraph g).generatePending
      ((List.range a.graph.interfaces.length).map Int.ofNat) t₁ = .ok () t ∧ t.Echoes all :=
    generatePending_withGraph ht₁ hwithin₁ hechoes fun j hj => hopened ▸ hbacked j hj
  refine ⟨t, bind_eq_ok.mpr ⟨(), t₁, hitems', ?_⟩, hechoes'⟩
  rwa [show (a.withGraph g).graph.interfaces.length = a.graph.interfaces.length from
    h.interfaces.length_eq.symm]

end Assignment

/-- **Lists of modules that echo one another** are the same up to order, if no
key comes twice in either. -/
theorem exists_perm_of_echoes {ms ms' : List Module} (hkeys : (ms.map Module.key).Nodup)
    (hkeys' : (ms'.map Module.key).Nodup) (h : ∀ m' ∈ ms', ∃ m ∈ ms, m.Reorders m')
    (h' : ∀ m ∈ ms, ∃ m' ∈ ms', m'.Reorders m) :
    ∃ ms'', ms'.Perm ms'' ∧ List.Forall₂ Module.Reorders ms ms'' := by
  induction ms generalizing ms' with
  | nil =>
    obtain rfl : ms' = [] := List.eq_nil_iff_forall_not_mem.mpr fun m' hm' => by
      obtain ⟨m, hm, -⟩ := h m' hm'
      exact absurd hm List.not_mem_nil
    exact ⟨[], .refl _, .nil⟩
  | cons m ms ih =>
    obtain ⟨m', hm', hreorders⟩ := h' m List.mem_cons_self
    obtain ⟨before, after, rfl⟩ := List.append_of_mem hm'
    have hperm : (before ++ m' :: after).Perm (m' :: (before ++ after)) := List.perm_middle
    obtain ⟨hnew, hkeys⟩ := List.nodup_cons.mp hkeys
    obtain ⟨hnew', hkeys'⟩ := List.nodup_cons.mp ((hperm.map Module.key).nodup_iff.mp hkeys')
    -- The modules that are left echo one another, because keys tell them from these two.
    obtain ⟨ms'', hrest, hall⟩ := ih hkeys hkeys'
      (fun x' hx' => by
        obtain ⟨x, hx, hxx'⟩ := h x' (hperm.mem_iff.mpr (List.mem_cons_of_mem _ hx'))
        rcases List.mem_cons.mp hx with rfl | hx
        · have hkey : x'.key ∈ (before ++ after).map Module.key := List.mem_map_of_mem hx'
          rw [hxx'.key, hreorders.key] at hkey
          exact absurd hkey hnew'
        · exact ⟨x, hx, hxx'⟩)
      (fun x hx => by
        obtain ⟨x', hx', hxx'⟩ := h' x (List.mem_cons_of_mem _ hx)
        rcases List.mem_cons.mp (hperm.mem_iff.mp hx') with rfl | hx'
        · have hkey : x.key ∈ ms.map Module.key := List.mem_map_of_mem hx
          rw [hxx'.key, ← hreorders.key] at hkey
          exact absurd hkey hnew
        · exact ⟨x', hx', hxx'⟩)
    exact ⟨m' :: ms'', hperm.trans (hrest.cons m'), .cons hreorders.symm hall⟩

/-- A run over reordered interfaces succeeds if the first does, and returns
modules that it returned. -/
theorem generateModules_echoes {g g' : Graph} (orderly : g.Orderly) (h : g.Reordered g')
    {o : Options} {ms : List Module} (hrun : generateModules g o = .ok ms) :
    ∃ ms', generateModules g' o = .ok ms' ∧ ∀ m' ∈ ms', ∃ m ∈ ms, m.Reorders m' := by
  obtain ⟨world, claims, s, hworld, hstart, hall, rfl⟩ := generateModules_iff.mp hrun
  have hgraph : (Assignment.ofOptions g o world).graph.Reordered g' := h
  obtain ⟨t, hall', hechoes⟩ := Assignment.generateAll_withGraph orderly hgraph
    (Layout.holdsExports_of_start hstart) hall
  refine ⟨t.modules, generateModules_iff.mpr ⟨world, claims, t, ?_, hstart, hall', rfl⟩, hechoes⟩
  rwa [selectWorld_reordered h]

/-- No key comes twice among modules that are returned. -/
theorem nodup_keys_of_generateModules {g : Graph} (orderly : g.Orderly) {o : Options}
    {ms : List Module} (hrun : generateModules g o = .ok ms) : (ms.map Module.key).Nodup := by
  obtain ⟨world, s, -, hfinished, rfl⟩ := finished_of_generateModules orderly hrun
  exact hfinished.progress.kept.nodup

/-- **The order of independent declarations does not matter.** Let the
interfaces of a graph list their types, and the functions that belong to no
resource, in another order. Then a run over the graph succeeds exactly if it
did before, whatever the options are. Up to their order the modules are the
same: at the same locations, hence with the same openers, and with the same
documentation; and each section of each module holds the same texts. -/
theorem generateModules_reordered {document : Document} {g g' : Graph}
    (hdocument : Graph.ofDocument document = .ok g) (h : g.Reordered g') (o : Options) :
    ((∃ ms, generateModules g o = .ok ms) ↔ ∃ ms', generateModules g' o = .ok ms') ∧
    ∀ ms ms', generateModules g o = .ok ms → generateModules g' o = .ok ms' →
      ∃ ms'', ms'.Perm ms'' ∧ List.Forall₂ (fun m m' => m.Reorders m' ∧ ∀ header part,
        ((m'.sourceFile header).sections part).Perm ((m.sourceFile header).sections part))
        ms ms'' := by
  have orderly : g.Orderly := Graph.orderly_of_ofDocument hdocument
  have orderly' : g'.Orderly := h.orderly orderly
  refine ⟨⟨?_, ?_⟩, fun ms ms' hrun hrun' => ?_⟩
  · rintro ⟨ms, hrun⟩
    obtain ⟨ms', hrun', -⟩ := generateModules_echoes orderly h hrun
    exact ⟨ms', hrun'⟩
  · rintro ⟨ms', hrun'⟩
    obtain ⟨ms, hrun, -⟩ := generateModules_echoes orderly' h.symm hrun'
    exact ⟨ms, hrun⟩
  · obtain ⟨ms₁, hrun₁, hechoes⟩ := generateModules_echoes orderly h hrun
    obtain ⟨ms₂, hrun₂, hechoes'⟩ := generateModules_echoes orderly' h.symm hrun'
    obtain rfl := Except.ok.inj (hrun₁.symm.trans hrun')
    obtain rfl := Except.ok.inj (hrun₂.symm.trans hrun)
    obtain ⟨ms'', hperm, hall⟩ := exists_perm_of_echoes (nodup_keys_of_generateModules orderly hrun)
      (nodup_keys_of_generateModules orderly' hrun') hechoes hechoes'
    exact ⟨ms'', hperm, hall.imp fun _ _ hm => ⟨hm, hm.sections⟩⟩

/-! ## A market -/

/-- A world that imports one interface. Two of its types are handles on
resources of interfaces that the world does not list. -/
def marketDocument : Document :=
  .object [
    (.text "packages", .list [.object [(.text "name", .string "a:b")]]),
    (.text "interfaces", .list [
      .object [(.text "name", .string "market"), (.text "package", .int 0),
        (.text "types", .object [(.text "purse", .int 2), (.text "stall", .int 3),
          (.text "cart", .int 4)]),
        (.text "functions", .object [
          (.text "pay", .object [(.text "name", .string "pay")]),
          (.text "[method]cart.add", .object [(.text "name", .string "[method]cart.add"),
            (.text "kind", .object [(.text "method", .int 4)])]),
          (.text "go", .object [(.text "name", .string "go")]),
          (.text "[static]cart.count", .object [(.text "name", .string "[static]cart.count"),
            (.text "kind", .object [(.text "static", .int 4)])])])],
      .object [(.text "name", .string "money"), (.text "package", .int 0),
        (.text "types", .object [(.text "coin", .int 0)])],
      .object [(.text "name", .string "map"), (.text "package", .int 0),
        (.text "types", .object [(.text "spot", .int 1)])]]),
    (.text "types", .list [
      .object [(.text "name", .string "coin"),
        (.text "owner", .object [(.text "interface", .int 1)]), (.text "kind", .string "resource")],
      .object [(.text "name", .string "spot"),
        (.text "owner", .object [(.text "interface", .int 2)]), (.text "kind", .string "resource")],
      .object [(.text "name", .string "purse"),
        (.text "owner", .object [(.text "interface", .int 0)]),
        (.text "kind", .object [(.text "handle", .object [(.text "own", .int 0)])])],
      .object [(.text "name", .string "stall"),
        (.text "owner", .object [(.text "interface", .int 0)]),
        (.text "kind", .object [(.text "handle", .object [(.text "borrow", .int 1)])])],
      .object [(.text "name", .string "cart"),
        (.text "owner", .object [(.text "interface", .int 0)]),
        (.text "kind", .string "resource")]]),
    (.text "worlds", .list [.object [(.text "name", .string "w"), (.text "package", .int 0),
      (.text "imports", .object [(.text "interface-0", .object [(.text "interface",
        .object [(.text "id", .int 0)])])])]])]

/-- The interface that the world imports, with its lists in a given order. -/
def marketInterface (types : List (Scalar × Int)) (functions : List (Scalar × Function)) :
    Interface where
  id := 0
  name := "market"
  package := some 0
  types := types
  functions := functions
  docs := none

/-- The graph in which the interface has its lists in a given order. -/
def marketGraph (types : List (Scalar × Int)) (functions : List (Scalar × Function)) :
    Graph where
  packages := [⟨0, ⟨"a", "b", none⟩, [], [], none⟩]
  interfaces := [marketInterface types functions,
    ⟨1, some "money", some 0, [(.text "coin", 0)], [], none⟩,
    ⟨2, some "map", some 0, [(.text "spot", 1)], [], none⟩]
  types := [⟨0, some "coin", .resource, some (.interface 1), none⟩,
    ⟨1, some "spot", .resource, some (.interface 2), none⟩,
    ⟨2, some "purse", .handle 0 false, some (.interface 0), none⟩,
    ⟨3, some "stall", .handle 1 true, some (.interface 0), none⟩,
    ⟨4, some "cart", .resource, some (.interface 0), none⟩]
  worlds := [⟨0, "w", some 0, [(.text "interface-0", .interface 0)], [], none⟩]

/-- The types of the interface, as they are listed. -/
def marketTypes : List (Scalar × Int) :=
  [(.text "purse", 2), (.text "stall", 3), (.text "cart", 4)]

/-- The functions of the interface, as they are listed. -/
def marketFunctions : List (Scalar × Function) :=
  [(.text "pay", ⟨"pay", .freestanding, [], [], none⟩),
    (.text "[method]cart.add", ⟨"add", .method 4, [], [], none⟩),
    (.text "go", ⟨"go", .freestanding, [], [], none⟩),
    (.text "[static]cart.count", ⟨"count", .static 4, [], [], none⟩)]

/-- The functions of the interface in another order, with those of the cart as
they were. -/
def marketFunctionsReordered : List (Scalar × Function) :=
  [(.text "go", ⟨"go", .freestanding, [], [], none⟩),
    (.text "[method]cart.add", ⟨"add", .method 4, [], [], none⟩),
    (.text "[static]cart.count", ⟨"count", .static 4, [], [], none⟩),
    (.text "pay", ⟨"pay", .freestanding, [], [], none⟩)]

/-- The lists of the interface come in another order. -/
theorem reordered_market : (marketGraph marketTypes marketFunctions).Reordered
    (marketGraph marketTypes.reverse marketFunctionsReordered) where
  packages := rfl
  interfaces := .cons ⟨rfl, rfl, rfl, rfl, List.reverse_perm _, by decide, rfl⟩
    (.cons ⟨rfl, rfl, rfl, rfl, .refl _, .refl _, rfl⟩
      (.cons ⟨rfl, rfl, rfl, rfl, .refl _, .refl _, rfl⟩ .nil))
  types := rfl
  worlds := rfl

/-- A run over the graph succeeds. -/
theorem generateModules_market :
    ∃ ms, generateModules (marketGraph marketTypes marketFunctions) {} = .ok ms := by
  have hok : (generateModules (marketGraph marketTypes marketFunctions) {}).isOk = true := by
    decide +kernel
  cases hrun : generateModules (marketGraph marketTypes marketFunctions) {} with
  | ok ms => exact ⟨ms, rfl⟩
  | error e =>
    rw [hrun] at hok
    cases hok

/-- The market can list its types from the last to the first, and its
functions in another order. The interfaces that its types refer to are met in
another order then, and still the modules are the same. -/
theorem generateModules_reordered_market :
    Graph.ofDocument marketDocument = .ok (marketGraph marketTypes marketFunctions) ∧
      (marketGraph marketTypes marketFunctions).Reordered
        (marketGraph marketTypes.reverse marketFunctionsReordered) ∧
      ∃ ms ms' ms'', generateModules (marketGraph marketTypes marketFunctions) {} = .ok ms ∧
        generateModules (marketGraph marketTypes.reverse marketFunctionsReordered) {} = .ok ms' ∧
        ms'.Perm ms'' ∧ List.Forall₂ (fun m m' => m.Reorders m' ∧ ∀ header part,
          ((m'.sourceFile header).sections part).Perm ((m.sourceFile header).sections part))
          ms ms'' := by
  have hdocument : Graph.ofDocument marketDocument
      = .ok (marketGraph marketTypes marketFunctions) := rfl
  obtain ⟨hsucceeds, hmodules⟩ := generateModules_reordered hdocument reordered_market {}
  obtain ⟨ms, hrun⟩ := generateModules_market
  obtain ⟨ms', hrun'⟩ := hsucceeds.mp ⟨ms, hrun⟩
  obtain ⟨ms'', hperm, hall⟩ := hmodules ms ms' hrun hrun'
  exact ⟨hdocument, reordered_market, ms, ms', ms'', hrun, hrun', hperm, hall⟩

end ComponentBindings
