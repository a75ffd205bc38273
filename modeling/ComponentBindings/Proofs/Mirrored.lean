import ComponentBindings.Proofs.Closed
import ComponentBindings.Proofs.Reordered
import ComponentBindings.Proofs.Replayed
import Mathlib.Data.List.Perm.Basic

/-!
# Two runs side by side

Two assignments whose interfaces list the same in another order walk the same
items, and open the same modules in the same order; only what is in the
modules comes in another order (`Module.Reorders`). `Placement.Mirrors` sets a
step of the one run beside a step of the other: if the first succeeds, then so
does the second, from any session with modules to match and nothing held
against it, and the modules match again.

Which modules have to match is a parameter. A run that walks the items of its
world keeps all of them in step. The interfaces that wait are taken in
different orders, though, and there only the module that is written is
compared, while the others stay as they were on either side.

Everything but an interface is generated by the very same steps. From an
interface declarations are taken off a list that may be in another order on
the other side. The declarations are emitted again whatever their order
(`Placement.Stable`), and to add them in another order is to reorder the
module (`Module.Reorders.foldl`).
-/

namespace ComponentBindings

/-! ## Modules in another order -/

/-- **A module that declares the same in another order.** -/
structure Module.Reorders (m m' : Module) : Prop where
  /-- It was generated for the same. -/
  key : m'.key = m.key
  /-- It lives at the same place. -/
  location : m'.location = m.location
  /-- It has the same documentation. -/
  docs : m'.docs = m.docs
  /-- It declares the same types. -/
  types : m'.types.Perm m.types
  /-- It declares the same resources. -/
  resources : m'.resources.Perm m.resources
  /-- It declares the same functions. -/
  functions : m'.functions.Perm m.functions

namespace Module.Reorders

variable {m m' m'' : Module} {β : Type}

protected theorem refl (m : Module) : m.Reorders m :=
  ⟨rfl, rfl, rfl, .refl _, .refl _, .refl _⟩

protected theorem symm (h : m.Reorders m') : m'.Reorders m :=
  ⟨h.key.symm, h.location.symm, h.docs.symm, h.types.symm, h.resources.symm, h.functions.symm⟩

protected theorem trans (h : m.Reorders m') (h' : m'.Reorders m'') : m.Reorders m'' :=
  ⟨h'.key.trans h.key, h'.location.trans h.location, h'.docs.trans h.docs, h'.types.trans h.types,
    h'.resources.trans h.resources, h'.functions.trans h.functions⟩

/-- **The sections of the source file hold the same texts.** -/
theorem sections (h : m.Reorders m') (header : Bool) (part : Section) :
    ((m'.sourceFile header).sections part).Perm ((m.sourceFile header).sections part) := by
  cases part with
  | types => exact h.types.map _
  | resources => exact h.resources.map _
  | functions => exact h.functions.map _

/-- A type is added to both. -/
theorem withType (h : m.Reorders m') (d : TypeDeclaration) :
    (m.withType d).Reorders (m'.withType d) := by
  unfold Module.withType
  split
  · exact { h with resources := h.resources.append_right [d] }
  · exact { h with types := h.types.append_right [d] }

/-- Two types are added in either order. -/
theorem withType_comm (m : Module) (d d' : TypeDeclaration) :
    ((m.withType d).withType d').Reorders ((m.withType d').withType d) where
  key := by simp
  location := by simp
  docs := by
    unfold Module.withType
    split <;> split <;> rfl
  types := by
    simp only [Module.withType_types, List.append_assoc]
    exact List.perm_append_comm.append_left _
  resources := by
    simp only [Module.withType_resources, List.append_assoc]
    exact List.perm_append_comm.append_left _
  functions := by simp

/-- A function is added to both. -/
theorem withFunction (h : m.Reorders m') (f : FreeFunction) :
    ({ m with functions := m.functions ++ [f] } : Module).Reorders
      { m' with functions := m'.functions ++ [f] } :=
  { h with functions := h.functions.append_right [f] }

/-- Two functions are added in either order. -/
theorem withFunction_comm (m : Module) (f f' : FreeFunction) :
    ({ m with functions := m.functions ++ [f] ++ [f'] } : Module).Reorders
      { m with functions := m.functions ++ [f'] ++ [f] } where
  key := rfl
  location := rfl
  docs := rfl
  types := .refl _
  resources := .refl _
  functions := by
    simp only [List.append_assoc]
    exact List.perm_append_comm.append_left _

/-- **What can be added in either order can be added in any order.** -/
theorem foldl {add : Module → β → Module} {bs bs' : List β}
    (hadd : ∀ m m' b, m.Reorders m' → (add m b).Reorders (add m' b))
    (hcomm : ∀ m b b', (add (add m b) b').Reorders (add (add m b') b)) (hperm : bs'.Perm bs)
    (h : m.Reorders m') : (bs.foldl add m).Reorders (bs'.foldl add m') := by
  have hfold : ∀ (bs : List β) {m m' : Module}, m.Reorders m' →
      (bs.foldl add m).Reorders (bs.foldl add m') := by
    intro bs
    induction bs with
    | nil => exact fun h => h
    | cons b bs ih => exact fun h => ih (hadd _ _ b h)
  induction hperm generalizing m m' with
  | nil => exact h
  | cons b _ ih => exact ih (hadd m m' b h)
  | swap b b' bs =>
    exact hfold bs ((hcomm m b b').trans (hadd _ _ b (hadd m m' b' h)))
  | trans _ _ ih ih' => exact (ih' (.refl m)).trans (ih h)

/-- Lists of modules that match have the same keys. -/
theorem map_key {ms ms' : List Module} (h : List.Forall₂ Module.Reorders ms ms') :
    ms'.map Module.key = ms.map Module.key := by
  induction h with
  | nil => rfl
  | cons hm _ ih => rw [List.map_cons, List.map_cons, hm.key, ih]

end Module.Reorders

/-! ## Modules that match -/

/-- The modules of a session with keys of a kind. -/
def Session.among (s : Session) (K : ModuleKey → Bool) : List Module :=
  s.modules.filter fun m => K m.key

/-- **Sessions whose modules with keys of a kind match**: they were opened in
the same order, and each declares the same. -/
def Session.Alike (K : ModuleKey → Bool) (s t : Session) : Prop :=
  List.Forall₂ Module.Reorders (s.among K) (t.among K)

/-- A module with one key is changed, and others are not. -/
def Module.changedAt (key : ModuleKey) (change : Module → Module) (m : Module) : Module :=
  if m.key = key then change m else m

section Changes

variable {K : ModuleKey → Bool} {key : ModuleKey} {change change' : Module → Module}
  {s s' t t' : Session}

/-- A change that keeps keys keeps them where it is made. -/
theorem Module.key_changedAt (hsame : ∀ m, (change m).key = m.key) (m : Module) :
    (m.changedAt key change).key = m.key := by
  unfold changedAt
  split
  · exact hsame m
  · rfl

/-- Nothing is changed anywhere. -/
theorem Module.map_changedAt_id (ms : List Module) :
    ms.map (Module.changedAt key fun m => m) = ms := by
  refine (List.map_congr_left fun m _ => ?_).trans (List.map_id ms)
  exact ite_self m

/-- Two changes are made one after the other. -/
theorem Module.changedAt_changedAt (hsame : ∀ m, (change m).key = m.key) (m : Module) :
    (m.changedAt key change).changedAt key change' =
      m.changedAt key fun m => change' (change m) := by
  unfold changedAt
  by_cases hm : m.key = key <;> simp [hm, hsame]

/-- Modules are open in a session that grows as they were. -/
theorem Session.Grows.among (h : s.Grows s') (K : ModuleKey → Bool) : s'.among K = s.among K := by
  rw [Session.among, h.modules, Session.among]

/-- A module is open on both sides or on neither if its key is of the kind. -/
theorem Session.Alike.any_key (h : s.Alike K t) (hkey : K key = true) :
    t.modules.any (·.key = key) = s.modules.any (·.key = key) := by
  have hamong : ∀ s : Session,
      s.modules.any (·.key = key) = ((s.among K).map Module.key).any (· = key) := by
    intro s
    rw [Session.among, List.any_map, List.any_filter]
    congr 1
    funext m
    by_cases hm : m.key = key <;> simp [hm, hkey]
  rw [hamong, hamong, Module.Reorders.map_key h]

/-- The session with one more module. -/
def Session.withModule (s : Session) (m : Module) : Session :=
  { s with modules := s.modules ++ [m] }

/-- A session advances when a module is opened. -/
theorem Session.advances_withModule (s : Session) (m : Module) : s.Advances (s.withModule m) :=
  ⟨List.prefix_rfl, by simp [opened, withModule], List.Subset.refl _⟩

/-- A module is opened among those of its kind. -/
theorem Session.among_withModule {m : Module} (hkey : K m.key = true) :
    (s.withModule m).among K = s.among K ++ [m] := by
  simp [among, withModule, hkey]

/-- The modules of another kind stay as they are. -/
theorem Session.others_withModule {m : Module} (hkey : K m.key = true) :
    (s.withModule m).among (!K ·) = s.among (!K ·) := by
  simp [among, withModule, hkey]

/-- A change of one module leaves the keys alone. -/
theorem Session.opened_of_changedAt (hsame : ∀ m, (change m).key = m.key)
    (hs' : s'.modules = s.modules.map (Module.changedAt key change)) : s'.opened = s.opened := by
  rw [opened, hs', List.map_map, opened]
  exact List.map_congr_left fun m _ => Module.key_changedAt hsame m

/-- Modules with keys of a kind are changed as all modules are. -/
theorem Session.among_of_changedAt (hsame : ∀ m, (change m).key = m.key)
    (hs' : s'.modules = s.modules.map (Module.changedAt key change)) :
    s'.among K = (s.among K).map (Module.changedAt key change) := by
  rw [among, hs', List.filter_map, among]
  refine congrArg (List.map _) (List.filter_congr fun m _ => ?_)
  exact congrArg K (Module.key_changedAt hsame m)

/-- A change of one module leaves the others alone. -/
theorem Session.others_of_changedAt (hkey : K key = true) (hsame : ∀ m, (change m).key = m.key)
    (hs' : s'.modules = s.modules.map (Module.changedAt key change)) :
    s'.among (!K ·) = s.among (!K ·) := by
  rw [among_of_changedAt hsame hs']
  refine (List.map_congr_left fun m hm => ?_).trans (List.map_id _)
  have hother : K m.key = false := by simpa using (List.mem_filter.mp hm).2
  have hne : m.key ≠ key := by
    rintro rfl
    simp [hkey] at hother
  exact if_neg hne

/-- **Modules that match are changed so that they match again.** -/
theorem Session.Alike.of_changedAt (h : s.Alike K t) (hsame : ∀ m, (change m).key = m.key)
    (hsame' : ∀ m, (change' m).key = m.key)
    (hchange : ∀ m m', m.Reorders m' → (change m).Reorders (change' m'))
    (hs' : s'.modules = s.modules.map (Module.changedAt key change))
    (ht' : t'.modules = t.modules.map (Module.changedAt key change')) : s'.Alike K t' := by
  unfold Alike
  rw [among_of_changedAt hsame hs', among_of_changedAt hsame' ht', List.forall₂_map_left_iff,
    List.forall₂_map_right_iff]
  refine h.imp fun m m' hm => ?_
  unfold Module.changedAt
  by_cases hkey : m.key = key
  · rw [if_pos hkey, if_pos (hm.key.trans hkey)]
    exact hchange m m' hm
  · rw [if_neg hkey, if_neg fun heq => hkey (hm.key.symm.trans heq)]
    exact hm

end Changes

/-! ## Steps that match -/

namespace Placement

variable {p : Placement} {all : Session} {K : ModuleKey → Bool} {α β : Type}

/-- **A step that another one mirrors.** Where the first succeeds, the second
does with the same result, from any session with modules to match that is
redeemed by the end of the first run; and the modules match again. Modules of
another kind are left alone by both. -/
def Mirrors (p : Placement) (all : Session) (K : ModuleKey → Bool) (x x' : Emission α) : Prop :=
  ∀ s b s', p.Coherent s → x s = .ok b s' →
    p.Coherent s' ∧ s.Advances s' ∧ s'.among (!K ·) = s.among (!K ·) ∧
    (s'.Within all → ∀ t, p.Coherent t → t.Within all → s.Alike K t →
      ∃ t', x' t = .ok b t' ∧ p.Coherent t' ∧ t'.Within all ∧
        t'.among (!K ·) = t.among (!K ·) ∧ s'.Alike K t')

namespace Mirrors

variable {x x' : Emission α} {key : ModuleKey}

/-- **What only emits is mirrored by itself.** -/
theorem of_stable (hx : p.Stable all x) : p.Mirrors all K x x := by
  intro s b s' hs hrun
  obtain ⟨hs', hgrows, hreplays⟩ := hx s b s' hs hrun
  refine ⟨hs', .of_grows hgrows, hgrows.among _, fun hwithin t ht hwithin' halike => ?_⟩
  obtain ⟨t', hrun', ht', hgrows', hwithin''⟩ := hreplays () hwithin t ht hwithin'
  refine ⟨t', hrun', ht', hwithin'', hgrows'.among _, ?_⟩
  unfold Session.Alike
  rw [hgrows.among, hgrows'.among]
  exact halike

/-- A value is returned on both sides. -/
theorem pure (b : α) : p.Mirrors all K (Pure.pure b) (Pure.pure b) :=
  of_stable (.pure b)

/-- A result that needs no session is the same on both sides if it is there on
the first. -/
theorem ofExcept {y y' : Except Fault α} (h : ∀ b, y = .ok b → y' = .ok b) :
    p.Mirrors all K (Emission.ofExcept y) (Emission.ofExcept y') := by
  cases y with
  | ok b =>
    rw [h b rfl]
    exact pure b
  | error e => exact fun s b s' _ hrun => absurd hrun throw_ne_ok

/-- **One step after another.** -/
theorem bind {f f' : α → Emission β} (hx : p.Mirrors all K x x')
    (hf : ∀ a, p.Mirrors all K (f a) (f' a)) : p.Mirrors all K (x >>= f) (x' >>= f') := by
  intro s b s'' hs hrun
  obtain ⟨a, s', hrunx, hrunf⟩ := bind_eq_ok.mp hrun
  obtain ⟨hs', hadvances, hothers, hmirror⟩ := hx s a s' hs hrunx
  obtain ⟨hs'', hadvances', hothers', hmirror'⟩ := hf a s' b s'' hs' hrunf
  refine ⟨hs'', hadvances.trans hadvances', hothers'.trans hothers,
    fun hwithin t ht hwithint halike => ?_⟩
  obtain ⟨t', hruntx, ht', hwithint', hotherst, halike'⟩ :=
    hmirror (hwithin.of_advances hadvances') t ht hwithint halike
  obtain ⟨t'', hruntf, ht'', hwithint'', hotherst', halike''⟩ :=
    hmirror' hwithin t' ht' hwithint' halike'
  exact ⟨t'', bind_eq_ok.mpr ⟨a, t', hruntx, hruntf⟩, ht'', hwithint'', hotherst'.trans hotherst,
    halike''⟩

/-- A list is walked on both sides. -/
theorem forM {f f' : α → Emission PUnit} (xs : List α) (hf : ∀ x, p.Mirrors all K (f x) (f' x)) :
    p.Mirrors all K (xs.forM f) (xs.forM f') := by
  induction xs with
  | nil => exact pure PUnit.unit
  | cons x xs ih => exact (hf x).bind fun _ => ih

/-- A module that is open on one side is open on the other. -/
theorem unless_open {x x' : Emission Unit} (hkey : K key = true) (hx : p.Mirrors all K x x') :
    p.Mirrors all K
      (get >>= fun s => if s.modules.any (·.key = key) = true then Pure.pure () else x)
      (get >>= fun s => if s.modules.any (·.key = key) = true then Pure.pure () else x') := by
  intro s b s' hs hrun
  obtain ⟨_, _, hget, hrun⟩ := bind_eq_ok.mp hrun
  obtain ⟨rfl, rfl⟩ := get_eq_ok.mp hget
  by_cases hopen : s.modules.any (·.key = key) = true
  · rw [if_pos hopen] at hrun
    obtain ⟨rfl, rfl⟩ := pure_eq_ok.mp hrun
    refine ⟨hs, .refl s, rfl, fun _ t ht hwithin halike => ⟨t, ?_, ht, hwithin, rfl, halike⟩⟩
    refine bind_eq_ok.mpr ⟨t, t, get_eq_ok.mpr ⟨rfl, rfl⟩, ?_⟩
    rw [if_pos ((halike.any_key hkey).trans hopen)]
    rfl
  · rw [if_neg hopen] at hrun
    obtain ⟨hs', hadvances, hothers, hmirror⟩ := hx s b s' hs hrun
    refine ⟨hs', hadvances, hothers, fun hwithin t ht hwithin' halike => ?_⟩
    obtain ⟨t', hrun', hrest⟩ := hmirror hwithin t ht hwithin' halike
    refine ⟨t', bind_eq_ok.mpr ⟨t, t, get_eq_ok.mpr ⟨rfl, rfl⟩, ?_⟩, hrest⟩
    rw [if_neg (by rwa [halike.any_key hkey])]
    exact hrun'

end Mirrors

end Placement

/-! ## What the steps of a run do to modules -/

namespace Assignment

open Placement

variable {a : Assignment} {orderly : a.graph.Orderly} {all : Session} {K : ModuleKey → Bool}
  {key : ModuleKey} {s s' t : Session}

/-- Tables stay right while modules are opened and changed. -/
theorem retraced_of_advances (h : (a.retraced orderly all).Coherent s) (hs : s.Advances s')
    (hreferences : s'.references = s.references)
    (hinstantiations : s'.instantiations = s.instantiations) (hpending : s'.pending = s.pending) :
    (a.retraced orderly all).Coherent s' :=
  h.transfer rfl rfl hreferences hinstantiations (fun j hj => h.pending j (hpending ▸ hj))
    fun _ ho => ho.advance hs

/-- A module is opened on both sides. -/
theorem mirrors_openModule (hkey : K key = true) (location : Location) (docs : Option String) :
    (a.retraced orderly all).Mirrors all K (openModule key location docs)
      (openModule key location docs) := by
  intro s u s' hs hrun
  unfold openModule at hrun ⊢
  rw [modify_eq_ok] at hrun
  by_cases hopen : s.modules.any (·.key = key) = true
  · rw [if_pos hopen] at hrun
    subst hrun
    refine ⟨hs, .refl s, rfl, fun _ t ht hwithin halike => ⟨t, ?_, ht, hwithin, rfl, halike⟩⟩
    exact modify_eq_ok.mpr (if_pos ((halike.any_key hkey).trans hopen))
  · rw [if_neg hopen] at hrun
    obtain rfl : s.withModule { key, location, docs } = s' := hrun
    have hcoherent : ∀ {s : Session}, (a.retraced orderly all).Coherent s →
        (a.retraced orderly all).Coherent (s.withModule { key, location, docs }) :=
      fun hs => retraced_of_advances hs (Session.advances_withModule _ _) rfl rfl rfl
    refine ⟨hcoherent hs, s.advances_withModule _, Session.others_withModule hkey,
      fun hwithin t ht hwithin' halike => ⟨t.withModule { key, location, docs },
        modify_eq_ok.mpr (if_neg ?_), hcoherent ht, ?_, Session.others_withModule hkey, ?_⟩⟩
    · rwa [halike.any_key hkey]
    · refine ⟨hwithin'.claims, fun k hk => ?_, hwithin'.pending⟩
      have hkey' : k ∈ t.opened ∨ k = key := by
        simpa [Session.opened, Session.withModule] using hk
      rcases hkey' with hk | rfl
      · exact hwithin'.opened hk
      · exact hwithin.opened (by simp [Session.opened, Session.withModule])
    · unfold Session.Alike
      rw [Session.among_withModule hkey, Session.among_withModule hkey]
      exact List.rel_append halike (.cons (.refl _) .nil)

/-- A change of one module keeps a session coherent and redeemed. -/
theorem changeModule_eq_ok (key : ModuleKey) {change : Module → Module}
    (hsame : ∀ m, (change m).key = m.key) (hs : (a.retraced orderly all).Coherent s) :
    ∃ s', changeModule key change s = .ok () s' ∧ (a.retraced orderly all).Coherent s' ∧
      s.Advances s' ∧ (s.Within all → s'.Within all) ∧
      s'.modules = s.modules.map (Module.changedAt key change) := by
  have hopened : Session.opened
      { s with modules := s.modules.map (Module.changedAt key change) } = s.opened :=
    Session.opened_of_changedAt hsame rfl
  have hadvances : s.Advances
      { s with modules := s.modules.map (Module.changedAt key change) } :=
    ⟨List.prefix_rfl, fun k hk => hopened ▸ hk, List.Subset.refl _⟩
  exact ⟨_, rfl, retraced_of_advances hs hadvances rfl rfl rfl, hadvances,
    fun hwithin => ⟨hwithin.claims, hopened ▸ hwithin.opened, hwithin.pending⟩, rfl⟩

/-- **A module is changed on both sides**, by changes that reorder it. -/
theorem mirrors_changeModule (hkey : K key = true) {change : Module → Module}
    (hsame : ∀ m, (change m).key = m.key)
    (hchange : ∀ m m', m.Reorders m' → (change m).Reorders (change m')) :
    (a.retraced orderly all).Mirrors all K (changeModule key change)
      (changeModule key change) := by
  intro s u s' hs hrun
  obtain ⟨s₁, hrun₁, hs₁, hadvances, -, hmodules⟩ := changeModule_eq_ok key hsame hs
  obtain ⟨rfl, rfl⟩ := EStateM.Result.ok.inj (hrun₁.symm.trans hrun)
  refine ⟨hs₁, hadvances, Session.others_of_changedAt hkey hsame hmodules,
    fun _ t ht hwithin halike => ?_⟩
  obtain ⟨t₁, hrunt, ht₁, -, hwithin₁, hmodulest⟩ := changeModule_eq_ok key hsame ht
  exact ⟨t₁, hrunt, ht₁, hwithin₁ hwithin, Session.others_of_changedAt hkey hsame hmodulest,
    halike.of_changedAt hsame hsame hchange hmodules hmodulest⟩

/-! ## Declarations off a list -/

/-- Declarations are emitted for the entries of a list, and each is added to a
module. -/
def declareAll {ι β : Type} (key : ModuleKey) (emit : ι → Emission β) (add : Module → β → Module)
    (xs : List ι) : Emission Unit :=
  xs.forM fun x => do changeModule key (add · (← emit x))

section DeclareAll

variable {ι β : Type} {emit : ι → Emission β} {add : Module → β → Module} {xs xs' : List ι}

/-- A list that is taken off adds what is emitted for its entries, in order,
and each of that can be emitted again. -/
theorem declareAll_eq_ok (hemit : ∀ x, (a.retraced orderly all).Stable all (emit x))
    (hsame : ∀ m b, (add m b).key = m.key) {u : Unit} (hs : (a.retraced orderly all).Coherent s)
    (hrun : declareAll key emit add xs s = .ok u s') :
    (a.retraced orderly all).Coherent s' ∧ s.Advances s' ∧ ∃ bs : List β,
      s'.modules = s.modules.map (Module.changedAt key fun m => bs.foldl add m) ∧
      (s'.Within all →
        List.Forall₂ (fun x b => (a.retraced orderly all).Replays all (emit x) b) xs bs) := by
  induction xs generalizing s with
  | nil =>
    obtain ⟨-, rfl⟩ := pure_eq_ok.mp hrun
    exact ⟨hs, .refl s, [], (Module.map_changedAt_id _).symm, fun _ => .nil⟩
  | cons x xs ih =>
    obtain ⟨_, s₂, hstep, hrest⟩ :=
      bind_eq_ok.mp (show (_ >>= fun _ => declareAll key emit add xs) s = _ from hrun)
    obtain ⟨b, s₁, hb, hadd⟩ := bind_eq_ok.mp hstep
    obtain ⟨hs₁, hgrows, hreplays⟩ := hemit x s b s₁ hs hb
    obtain ⟨_, hadd', hs₂, hadvances, -, hmodules⟩ :=
      changeModule_eq_ok key (fun m => hsame m b) hs₁
    obtain ⟨-, rfl⟩ := EStateM.Result.ok.inj (hadd'.symm.trans hadd)
    obtain ⟨hs', hadvances', bs, hmodules', hall⟩ := ih hs₂ hrest
    have hadvances₁ := (Session.Advances.of_grows hgrows).trans hadvances
    refine ⟨hs', hadvances₁.trans hadvances', b :: bs, ?_, fun hwithin =>
      .cons (hreplays () (hwithin.of_advances (hadvances.trans hadvances'))) (hall hwithin)⟩
    rw [hmodules', hmodules, hgrows.modules, List.map_map]
    exact List.map_congr_left fun m _ => Module.changedAt_changedAt (fun m => hsame m b) m

/-- A list can be taken off if there is something to emit for each entry. -/
theorem declareAll_of_replays (key : ModuleKey) (hsame : ∀ m b, (add m b).key = m.key) {bs : List β}
    (hall : List.Forall₂ (fun x b => (a.retraced orderly all).Replays all (emit x) b) xs bs)
    (ht : (a.retraced orderly all).Coherent t) (hwithin : t.Within all) :
    ∃ t', declareAll key emit add xs t = .ok () t' ∧ (a.retraced orderly all).Coherent t' ∧
      t'.Within all ∧
      t'.modules = t.modules.map (Module.changedAt key fun m => bs.foldl add m) := by
  induction hall generalizing t with
  | nil =>
    exact ⟨t, rfl, ht, hwithin, (Module.map_changedAt_id _).symm⟩
  | @cons x b xs bs hx _ ih =>
    obtain ⟨t₁, hb, ht₁, hgrows, hwithin₁⟩ := hx t ht hwithin
    obtain ⟨t₂, hadd, ht₂, -, hwithin₂, hmodules⟩ :=
      changeModule_eq_ok key (fun m => hsame m b) ht₁
    obtain ⟨t', hrest, ht', hwithin', hmodules'⟩ := ih ht₂ (hwithin₂ hwithin₁)
    refine ⟨t', ?_, ht', hwithin', ?_⟩
    · exact bind_eq_ok.mpr ⟨(), t₂, bind_eq_ok.mpr ⟨b, t₁, hb, hadd⟩, hrest⟩
    · rw [hmodules', hmodules, hgrows.modules, List.map_map]
      exact List.map_congr_left fun m _ => Module.changedAt_changedAt (fun m => hsame m b) m

/-- **A list may be taken off in another order on the other side**, if what is
emitted can be added in any order. -/
theorem mirrors_declareAll (hkey : K key = true)
    (hemit : ∀ x, (a.retraced orderly all).Stable all (emit x))
    (hsame : ∀ m b, (add m b).key = m.key)
    (hadd : ∀ m m' b, m.Reorders m' → (add m b).Reorders (add m' b))
    (hcomm : ∀ m b b', (add (add m b) b').Reorders (add (add m b') b)) (hperm : xs'.Perm xs) :
    (a.retraced orderly all).Mirrors all K (declareAll key emit add xs)
      (declareAll key emit add xs') := by
  have hsameAll : ∀ (bs : List β) (m : Module), (bs.foldl add m).key = m.key := by
    intro bs
    induction bs with
    | nil => exact fun _ => rfl
    | cons b bs ih => exact fun m => (ih _).trans (hsame m b)
  intro s u s' hs hrun
  obtain ⟨hs', hadvances, bs, hmodules, hall⟩ := declareAll_eq_ok hemit hsame hs hrun
  refine ⟨hs', hadvances, Session.others_of_changedAt hkey (hsameAll bs) hmodules,
    fun hwithin t ht hwithin' halike => ?_⟩
  obtain ⟨bs', hall', hbs⟩ := List.perm_comp_forall₂ hperm (hall hwithin)
  obtain ⟨t', hrun', ht', hwithin'', hmodules'⟩ :=
    declareAll_of_replays key hsame hall' ht hwithin'
  exact ⟨t', hrun', ht', hwithin'', Session.others_of_changedAt hkey (hsameAll bs') hmodules',
    halike.of_changedAt (hsameAll bs) (hsameAll bs')
      (fun m m' hm => hm.foldl hadd hcomm hbs) hmodules hmodules'⟩

end DeclareAll

/-! ## From one item to the next -/

variable {location : Location} {site : Site}

/-- The declaration of the type with a given id. -/
def declaration (a : Assignment) (location : Location) (site : Site) (id : Int) :
    Emission TypeDeclaration := do
  (a.renderer location).emitType site (← Emission.ofExcept (a.graph.typeDef id))

/-- The declaration of a type is emitted again. -/
theorem stable_declaration (id : Int) :
    (a.retraced orderly all).Stable all (a.declaration location site id) :=
  (Stable.ofExcept _).bind fun t => (renderer_retraces orderly all location).stable_type site t

/-- A type is declared by adding its declaration. -/
theorem generateType_eq (id : Int) :
    a.generateType key location site id = (do
      changeModule key (·.withType (← a.declaration location site id))) := by
  unfold declaration
  rw [bind_assoc]
  rfl

/-- A type is declared on both sides. -/
theorem mirrors_generateType (hkey : K key = true) (id : Int) :
    (a.retraced orderly all).Mirrors all K (a.generateType key location site id)
      (a.generateType key location site id) := by
  rw [generateType_eq]
  exact (Mirrors.of_stable (stable_declaration id)).bind fun d =>
    mirrors_changeModule hkey (fun _ => Module.withType_key) fun _ _ hm => hm.withType d

/-- A function is declared on both sides. -/
theorem mirrors_generateFunction (hkey : K key = true) (f : Function) :
    (a.retraced orderly all).Mirrors all K (a.generateFunction key location site f)
      (a.generateFunction key location site f) := by
  unfold generateFunction
  split
  · have hstable := (renderer_retraces orderly all location).stable_function site f
    exact (Mirrors.of_stable hstable).bind fun d =>
      mirrors_changeModule hkey (fun _ => rfl) fun _ _ hm => hm.withFunction d
  · exact Mirrors.pure _

/-- Types are declared one after the other as a list of declarations is. -/
theorem forM_generateType_eq (types : List (Scalar × Int)) :
    (types.forM fun (_, id) => a.generateType key location site id) =
      declareAll key (fun entry : Scalar × Int => a.declaration location site entry.2)
        Module.withType types := by
  unfold declareAll
  refine congrArg (List.forM types) (funext fun entry => ?_)
  exact generateType_eq entry.2

/-- Functions are declared one after the other as those that stand on their
own are. -/
theorem forM_generateFunction_eq (functions : List (Scalar × Function)) :
    (functions.forM fun (_, f) => a.generateFunction key location site f) =
      declareAll key (fun entry : Scalar × Function =>
        (a.renderer location).emitFunction site entry.2)
        (fun m d => { m with functions := m.functions ++ [d] })
        (functions.filter (·.2.isFreestanding)) := by
  induction functions with
  | nil => rfl
  | cons entry functions ih =>
    obtain ⟨_, f⟩ := entry
    show (a.generateFunction key location site f >>= fun _ => functions.forM _) = _
    rw [ih]
    unfold generateFunction
    cases hfree : f.isFreestanding with
    | true =>
      simp only [List.filter_cons, hfree, if_true]
      rfl
    | false =>
      simp only [List.filter_cons, hfree, Bool.false_eq_true, if_false]
      exact pure_bind _ _

/-- The module of the world is opened on both sides. -/
theorem mirrors_worldModule {direction : Direction} (hkey : K (.world direction) = true) :
    (a.retraced orderly all).Mirrors all K (a.worldModule direction) (a.worldModule direction) :=
  (Mirrors.of_stable (stable_worldLocation direction)).bind fun location =>
    (mirrors_openModule hkey location a.world.docs).bind fun _ => Mirrors.pure location

/-- A function of the world is declared on both sides. -/
theorem mirrors_generateWorldFunction (f : Function) {direction : Direction}
    (hkey : K (.world direction) = true) :
    (a.retraced orderly all).Mirrors all K (a.generateWorldFunction f direction)
      (a.generateWorldFunction f direction) := by
  unfold generateWorldFunction
  split
  · exact (mirrors_worldModule hkey).bind fun _ => mirrors_generateFunction hkey f
  · exact Mirrors.pure _

/-- A type of the world is declared on both sides. -/
theorem mirrors_generateWorldType (id : Int) {direction : Direction}
    (hkey : K (.world direction) = true) :
    (a.retraced orderly all).Mirrors all K (a.generateWorldType id direction)
      (a.generateWorldType id direction) := by
  unfold generateWorldType
  refine (Mirrors.of_stable (.ofExcept _)).bind fun t =>
    (Mirrors.of_stable (.ofExcept _)).bind fun _ =>
      (Mirrors.of_stable (stable_declaresInWorld t direction)).bind fun declares => ?_
  split
  · exact (mirrors_worldModule hkey).bind fun _ => mirrors_generateType hkey id
  · exact Mirrors.pure _

variable {g : Graph} (h : a.graph.Reordered g)

include h

/-- **The types of an interface are declared on both sides**, in whatever
order they are listed. -/
theorem mirrors_generateTypes {i i' : Interface} (hi : i.Reordered i') {j : Int}
    (hkey : K key = true) :
    (a.retraced orderly all).Mirrors all K (a.generateTypes i j key location site)
      ((a.withGraph g).generateTypes i' j key location site) := by
  unfold generateTypes
  rw [locate_withGraph h, generateType_withGraph h]
  refine (Mirrors.of_stable (stable_locate _)).bind fun found => ?_
  split
  · rw [forM_generateType_eq, forM_generateType_eq]
    exact mirrors_declareAll hkey (fun entry => stable_declaration entry.2)
      (fun _ _ => Module.withType_key) (fun _ _ d hm => hm.withType d)
      Module.Reorders.withType_comm hi.types
  · exact Mirrors.pure _

/-- **The functions of an interface are declared on both sides**, in whatever
order those that stand on their own are listed. -/
theorem mirrors_generateFunctions {i i' : Interface} (hi : i.Reordered i') (hkey : K key = true) :
    (a.retraced orderly all).Mirrors all K
      (i.functions.forM fun (_, f) => a.generateFunction key location site f)
      (i'.functions.forM fun (_, f) => (a.withGraph g).generateFunction key location site f) := by
  rw [generateFunction_withGraph h, forM_generateFunction_eq, forM_generateFunction_eq]
  exact mirrors_declareAll hkey
    (fun entry => (renderer_retraces orderly all location).stable_function site entry.2)
    (fun _ _ => rfl) (fun _ _ d hm => hm.withFunction d) Module.Reorders.withFunction_comm
    (hi.functions.filter _)

/-- Resources are refused on both sides or on neither. -/
theorem refuseExported_of_perm {direction : Direction} {identity : Scalar} {types types' : List Int}
    (htypes : types'.Perm types) {u : Unit}
    (hrun : a.refuseExported direction identity types = .ok u) :
    (a.withGraph g).refuseExported direction identity types' = .ok u := by
  rw [refuseExported_withGraph h]
  cases direction with
  | imported => rfl
  | exported =>
    refine except_forM_eq_ok.mpr fun id hid => ?_
    exact except_forM_eq_ok.mp hrun id (htypes.mem_iff.mp hid)

/-- An interface is found on both sides, in one order or another. -/
theorem mirrors_interface {j : Int} {f f' : Interface → Emission Unit}
    (hf : ∀ i i', i.Reordered i' → (a.retraced orderly all).Mirrors all K (f i) (f' i')) :
    (a.retraced orderly all).Mirrors all K (Emission.ofExcept (a.graph.interface j) >>= f)
      (Emission.ofExcept ((a.withGraph g).graph.interface j) >>= f') := by
  rcases h.interface j with ⟨i, i', hi, hi', hreordered⟩ | ⟨e, he, -⟩
  · rw [hi, show (a.withGraph g).graph.interface j = .ok i' from hi']
    exact hf i i' hreordered
  · rw [he]
    intro s u s' _ hrun
    obtain ⟨_, _, hthrow, -⟩ := bind_eq_ok.mp hrun
    exact absurd hthrow throw_ne_ok

/-- **The module of an interface is generated on both sides.** -/
theorem mirrors_generateInterface (j : Int) (listed : Option Scalar) (direction : Direction)
    (typesOnly : Bool) (hkey : K (.interface j direction) = true) :
    (a.retraced orderly all).Mirrors all K (a.generateInterface j listed direction typesOnly)
      ((a.withGraph g).generateInterface j listed direction typesOnly) := by
  have hidentity : (a.withGraph g).graph.identityOf = a.graph.identityOf := h.identityOf
  refine Mirrors.unless_open hkey (mirrors_interface h fun i i' hi => ?_)
  rw [interfaceLocation_withGraph h, hidentity, hi.docs]
  refine (Mirrors.of_stable (stable_interfaceLocation j direction)).bind fun location =>
    (Mirrors.of_stable (.ofExcept _)).bind fun identity => ?_
  refine (Mirrors.ofExcept fun _ => refuseExported_of_perm h (hi.types.map Prod.snd)).bind
    fun _ => (mirrors_openModule hkey location i.docs).bind fun _ =>
      (mirrors_generateTypes h hi hkey).bind fun _ => ?_
  cases typesOnly with
  | true => exact Mirrors.pure _
  | false => exact mirrors_generateFunctions h hi hkey

/-- An item of the world is walked on both sides. -/
theorem mirrors_generateItem (item : Direction × Scalar × WorldItem) :
    (a.retraced orderly all).Mirrors all (fun _ => true) (a.generateItem item)
      ((a.withGraph g).generateItem item) := by
  obtain ⟨direction, key, item⟩ := item
  cases item with
  | interface j => exact mirrors_generateInterface h j key direction false rfl
  | function f =>
    show Mirrors _ _ _ (a.generateWorldFunction f direction)
      ((a.withGraph g).generateWorldFunction f direction)
    rw [generateWorldFunction_withGraph h]
    exact mirrors_generateWorldFunction f rfl
  | type id =>
    show Mirrors _ _ _ (a.generateWorldType id direction)
      ((a.withGraph g).generateWorldType id direction)
    rw [generateWorldType_withGraph h]
    exact mirrors_generateWorldType id rfl

/-- **The items of the world are walked on both sides.** -/
theorem mirrors_items :
    (a.retraced orderly all).Mirrors all (fun _ => true) (a.items.forM a.generateItem)
      ((a.withGraph g).items.forM (a.withGraph g).generateItem) :=
  Mirrors.forM a.items (mirrors_generateItem h)

end Assignment

end ComponentBindings
