import ComponentBindings.Session
import Mathlib.Data.List.Forall2
import Mathlib.Data.List.Infix

/-!
# Successful emissions

An emission is a chain of small steps, and a statement about one that
succeeded starts by taking the chain apart: what the first step returned, the
session it left behind, and what the rest did from there. The lemmas of this
module do that for one step each. They are simp lemmas, so that
`simp only [bind_eq_ok, …] at h` turns a successful run into the runs of its
parts.

Loops are taken apart by an invariant. `forM_keeps` is the rule for a loop
that returns nothing; its invariant may speak of the items that have been
walked, so that it can say what they have come to. Where it is a property of
computations that is carried through a loop, it is enough to know that it is
carried through a chain (`KeptByChains`).

What an emission does to a session is mostly to add to it.
`Session.Grows` is that: claims, references and noted interfaces are added at
the end, and the modules stay as they are. Everything that renders a type or
emits a declaration grows the session in this sense; only opening a module
and adding to it does not.
-/

namespace ComponentBindings

/-! ## Properties of computations -/

/-- **A property of computations that chains keep**: what returns a value has it,
and a chain has it if its steps do. -/
structure KeptByChains {m : Type → Type} [Monad m] (P : ∀ α : Type, m α → Prop) : Prop where
  /-- What returns a value has it. -/
  pure : ∀ {α : Type} (a : α), P α (pure a)
  /-- A chain has it if both steps do. -/
  bind : ∀ {α β : Type} {x : m α} {f : α → m β}, P α x → (∀ a, P β (f a)) → P β (x >>= f)

namespace KeptByChains

variable {m : Type → Type} [Monad m] {P : ∀ α : Type, m α → Prop} (h : KeptByChains P)
  {α β : Type} {xs : List α}

include h

/-- A walk over a list takes its steps one by one. -/
theorem forM {f : α → m PUnit} (hf : ∀ x ∈ xs, P PUnit (f x)) : P PUnit (xs.forM f) := by
  induction xs with
  | nil => exact h.pure PUnit.unit
  | cons x xs ih =>
    exact h.bind (hf x List.mem_cons_self) fun _ => ih fun z hz => hf z (List.mem_cons_of_mem x hz)

variable [LawfulMonad m]

/-- A list is walked item by item. -/
theorem mapM {f : α → m β} (hf : ∀ x ∈ xs, P β (f x)) : P (List β) (xs.mapM f) := by
  induction xs with
  | nil => exact h.pure []
  | cons x xs ih =>
    have hrest := ih fun z hz => hf z (List.mem_cons_of_mem x hz)
    rw [List.mapM_cons]
    exact h.bind (hf x List.mem_cons_self) fun y => h.bind hrest fun ys => h.pure (y :: ys)

/-- A list is sifted item by item. -/
theorem filterMapM {f : α → m (Option β)} (hf : ∀ x ∈ xs, P (Option β) (f x)) :
    P (List β) (xs.filterMapM f) := by
  induction xs with
  | nil => exact h.pure []
  | cons x xs ih =>
    have hrest := ih fun z hz => hf z (List.mem_cons_of_mem x hz)
    rw [List.filterMapM_cons]
    refine h.bind (hf x List.mem_cons_self) fun y => ?_
    cases y with
    | none => exact hrest
    | some y => exact h.bind hrest fun ys => h.pure (y :: ys)

end KeptByChains

section Faults

variable {ε α β : Type}

/-- A chain that needs no state succeeds when its steps do. -/
@[simp] theorem except_bind_eq_ok {x : Except ε α} {f : α → Except ε β} {b : β} :
    (x >>= f) = .ok b ↔ ∃ a, x = .ok a ∧ f a = .ok b := by
  cases x <;> simp [bind, Except.bind]

/-- Returning a value succeeds with that value. -/
@[simp] theorem except_pure_eq_ok {a b : α} : (pure a : Except ε α) = .ok b ↔ a = b := by
  simp [pure, Except.pure]

/-- A fault is no success, without a state either. -/
@[simp] theorem except_throw_ne_ok {e : ε} {a : α} : ¬ (throw e : Except ε α) = .ok a := by
  simp [throw, throwThe, MonadExceptOf.throw]

/-- A mapped result is a result, mapped. -/
@[simp] theorem except_map_eq_ok {x : Except ε α} {f : α → β} {b : β} :
    (f <$> x) = .ok b ↔ ∃ a, x = .ok a ∧ f a = b := by
  cases x <;> simp [Functor.map, Except.map]

/-- A fault stays a fault when a result would be mapped. -/
theorem except_map_eq_error {x : Except ε α} {f : α → β} {e : ε} :
    (f <$> x) = .error e ↔ x = .error e := by
  cases x <;> simp [Functor.map, Except.map]

/-- What is kept of a result is the result of a success. -/
theorem except_toOption_eq_some {x : Except ε α} {a : α} : x.toOption = some a ↔ x = .ok a := by
  cases x <;> simp [Except.toOption]

/-- A list is read item by item. -/
theorem forall₂_of_mapM_eq_ok {f : α → Except ε β} {xs : List α} {ys : List β}
    (h : xs.mapM f = .ok ys) : List.Forall₂ (fun x y => f x = .ok y) xs ys := by
  induction xs generalizing ys with
  | nil =>
    obtain rfl : [] = ys := by simpa using h
    exact .nil
  | cons x xs ih =>
    simp only [List.mapM_cons, except_bind_eq_ok, except_pure_eq_ok] at h
    obtain ⟨y, hy, ys', hys, rfl⟩ := h
    exact .cons hy (ih hys)

/-- A list whose items can be read can be read. -/
theorem mapM_eq_ok_of_forall₂ {f : α → Except ε β} {xs : List α} {ys : List β}
    (h : List.Forall₂ (fun x y => f x = .ok y) xs ys) : xs.mapM f = .ok ys := by
  induction h with
  | nil => rfl
  | cons hx _ ih =>
    rw [List.mapM_cons, hx, ih]
    rfl

/-- Of two related lists, what is kept on the one side is related to what is
picked on the other, if the relation says which is which. -/
theorem forall₂_filter_filterMap {γ : Type} {R : α → β → Prop} {S : α → γ → Prop}
    {keep : α → Bool} {pick : β → Option γ} {xs : List α} {ys : List β} (h : List.Forall₂ R xs ys)
    (hsome : ∀ {x y z}, R x y → pick y = some z → keep x = true ∧ S x z)
    (hnone : ∀ {x y}, R x y → pick y = none → keep x = false) :
    List.Forall₂ S (xs.filter keep) (ys.filterMap pick) := by
  induction h with
  | nil => exact .nil
  | @cons x y xs ys hxy _ ih =>
    cases hpick : pick y with
    | none =>
      rw [List.filter_cons_of_neg (by simp [hnone hxy hpick]), List.filterMap_cons_none hpick]
      exact ih
    | some z =>
      obtain ⟨hkeep, hz⟩ := hsome hxy hpick
      rw [List.filter_cons_of_pos hkeep, List.filterMap_cons_some hpick]
      exact .cons hz ih

/-- What is related to a list item by item is related to its items. -/
theorem exists_of_mem_right {R : α → β → Prop} {xs : List α} {ys : List β}
    (h : List.Forall₂ R xs ys) {y : β} (hy : y ∈ ys) : ∃ x ∈ xs, R x y := by
  induction h with
  | nil => exact absurd hy List.not_mem_nil
  | cons hhead _ ih =>
    rcases List.mem_cons.mp hy with rfl | hy
    · exact ⟨_, List.mem_cons_self, hhead⟩
    · obtain ⟨x, hx, hxy⟩ := ih hy
      exact ⟨x, List.mem_cons_of_mem _ hx, hxy⟩

/-- What a list is related to item by item is related to its items. -/
theorem exists_of_mem_left {R : α → β → Prop} {xs : List α} {ys : List β}
    (h : List.Forall₂ R xs ys) {x : α} (hx : x ∈ xs) : ∃ y ∈ ys, R x y :=
  exists_of_mem_right h.flip hx

end Faults

section Steps

variable {ε σ α β : Type}

/-- A chain succeeds when its first step does and the rest does after it. -/
@[simp] theorem bind_eq_ok {x : EStateM ε σ α} {f : α → EStateM ε σ β} {s s'' : σ} {b : β} :
    (x >>= f) s = .ok b s'' ↔ ∃ a s', x s = .ok a s' ∧ f a s' = .ok b s'' := by
  show EStateM.bind x f s = _ ↔ _
  unfold EStateM.bind
  cases x s <;> simp

/-- A chain fails when its first step does, or the rest does after it. -/
theorem bind_eq_error {x : EStateM ε σ α} {f : α → EStateM ε σ β} {s s'' : σ} {e : ε} :
    (x >>= f) s = .error e s'' ↔
      x s = .error e s'' ∨ ∃ a s', x s = .ok a s' ∧ f a s' = .error e s'' := by
  show EStateM.bind x f s = _ ↔ _
  unfold EStateM.bind
  cases x s <;> simp

/-- Returning a value leaves the state alone. -/
@[simp] theorem pure_eq_ok {a b : α} {s s' : σ} :
    (pure a : EStateM ε σ α) s = .ok b s' ↔ a = b ∧ s = s' := by
  show EStateM.Result.ok a s = _ ↔ _
  simp

/-- Returning a value does not fail. -/
@[simp] theorem pure_ne_error {a : α} {e : ε} {s s' : σ} :
    ¬ (pure a : EStateM ε σ α) s = .error e s' := by
  show ¬ EStateM.Result.ok a s = _
  simp

/-- A fault is no success. -/
@[simp] theorem throw_ne_ok {e : ε} {b : α} {s s' : σ} :
    ¬ (throw e : EStateM ε σ α) s = .ok b s' := by
  show ¬ EStateM.Result.error e s = _
  simp

/-- A fault leaves the state alone. -/
@[simp] theorem throw_eq_error {e e' : ε} {s s' : σ} :
    (throw e : EStateM ε σ α) s = .error e' s' ↔ e = e' ∧ s = s' := by
  show EStateM.Result.error e s = _ ↔ _
  simp

/-- Reading the state returns it. -/
@[simp] theorem get_eq_ok {s s' t : σ} :
    (get : EStateM ε σ σ) s = .ok t s' ↔ s = t ∧ s = s' := by
  show EStateM.Result.ok s s = _ ↔ _
  simp

/-- Reading the state does not fail. -/
@[simp] theorem get_ne_error {e : ε} {s s' : σ} : ¬ (get : EStateM ε σ σ) s = .error e s' := by
  show ¬ EStateM.Result.ok s s = _
  simp

/-- A change to the state is made. -/
@[simp] theorem modify_eq_ok {f : σ → σ} {s s' : σ} {u : Unit} :
    (modify f : EStateM ε σ Unit) s = .ok u s' ↔ f s = s' := by
  show EStateM.Result.ok () (f s) = _ ↔ _
  simp

/-- A change to the state does not fail. -/
@[simp] theorem modify_ne_error {f : σ → σ} {e : ε} {s s' : σ} :
    ¬ (modify f : EStateM ε σ Unit) s = .error e s' := by
  show ¬ EStateM.Result.ok () (f s) = _
  simp

/-- A mapped result is the result of the step, mapped. -/
@[simp] theorem map_eq_ok {x : EStateM ε σ α} {f : α → β} {s s' : σ} {b : β} :
    (f <$> x) s = .ok b s' ↔ ∃ a, x s = .ok a s' ∧ f a = b := by
  show EStateM.map f x s = _ ↔ _
  unfold EStateM.map
  cases x s <;> simp [and_comm]

/-- A mapped step fails as the step does. -/
@[simp] theorem map_eq_error {x : EStateM ε σ α} {f : α → β} {s s' : σ} {e : ε} :
    (f <$> x) s = .error e s' ↔ x s = .error e s' := by
  show EStateM.map f x s = _ ↔ _
  unfold EStateM.map
  cases x s <;> simp

/-- **The rule for a loop**: what holds of the items walked so far, and is
carried on by every step, holds of all items after the loop. -/
theorem forM_keeps {f : α → EStateM ε σ PUnit} {I : List α → σ → Prop} {xs : List α}
    (step : ∀ done x s u s', x ∈ xs → I done s → f x s = .ok u s' → I (done ++ [x]) s')
    {s s' : σ} {u : PUnit} (start : I [] s) (h : xs.forM f s = .ok u s') : I xs s' := by
  suffices key : ∀ (rest done : List α) (s : σ), (∀ x ∈ rest, x ∈ xs) → I done s →
      rest.forM f s = .ok u s' → I (done ++ rest) s' by
    simpa using key xs [] s (fun _ hx => hx) start h
  intro rest
  induction rest with
  | nil =>
    intro done s _ hI hrun
    obtain ⟨-, rfl⟩ := pure_eq_ok.mp hrun
    simpa using hI
  | cons x rest ih =>
    intro done s hsub hI hrun
    obtain ⟨v, s₁, hx, hrest⟩ := bind_eq_ok.mp (show (f x >>= fun _ => rest.forM f) s = _ from hrun)
    have hnext := step done x s v s₁ (hsub x List.mem_cons_self) hI hx
    have := ih (done ++ [x]) s₁ (fun y hy => hsub y (List.mem_cons_of_mem x hy)) hnext hrest
    simpa using this

end Steps

namespace Emission

variable {α : Type}

/-- A computation without a state leaves the session alone. -/
@[simp] theorem ofExcept_eq_ok {x : Except Fault α} {a : α} {s s' : Session} :
    ofExcept x s = .ok a s' ↔ x = .ok a ∧ s = s' := by
  cases x <;> simp [ofExcept]

/-- A computation without a state fails in any session alike. -/
@[simp] theorem ofExcept_eq_error {x : Except Fault α} {e : Fault} {s s' : Session} :
    ofExcept x s = .error e s' ↔ x = .error e ∧ s = s' := by
  cases x <;> simp [ofExcept]

/-- A computation that makes claims changes the claims alone. -/
@[simp] theorem ofNaming_eq_ok {x : Naming α} {a : α} {s s' : Session} :
    ofNaming x s = .ok a s' ↔ ∃ claims, x s.claims = .ok a claims ∧ s' = { s with claims } := by
  unfold ofNaming
  cases x s.claims <;> simp [eq_comm]

/-- Claims that are made one after the other. -/
theorem ofNaming_bind {β : Type} (x : Naming α) (f : α → Naming β) :
    ofNaming (x >>= f) = ofNaming x >>= fun a => ofNaming (f a) := by
  funext s
  show ofNaming (EStateM.bind x f) s = EStateM.bind (ofNaming x) (fun a => ofNaming (f a)) s
  simp only [ofNaming, EStateM.bind]
  cases x s.claims with
  | ok a claims => rfl
  | error e claims => rfl

end Emission

/-! ## Sessions that grow -/

/-- The modules that are open, by what they are generated for. -/
def Session.opened (s : Session) : List ModuleKey := s.modules.map Module.key

/-- **A session that has grown into another one**: things have been added at
the end, and the modules are the same. -/
structure Session.Grows (s s' : Session) : Prop where
  /-- Claims are added. -/
  claims : s.claims <+: s'.claims
  /-- References are added. -/
  references : s.references <+: s'.references
  /-- Interfaces are noted. -/
  pending : s.pending <+: s'.pending
  /-- The modules stay. -/
  modules : s'.modules = s.modules

namespace Session.Grows

variable {s s' s'' : Session}

/-- A session has grown into itself. -/
protected theorem refl (s : Session) : s.Grows s :=
  ⟨⟨[], by simp⟩, ⟨[], by simp⟩, ⟨[], by simp⟩, rfl⟩

/-- A session that grows twice has grown. -/
protected theorem trans (h : s.Grows s') (h' : s'.Grows s'') : s.Grows s'' where
  claims := h.claims.trans h'.claims
  references := h.references.trans h'.references
  pending := h.pending.trans h'.pending
  modules := h'.modules.trans h.modules

/-- A session that grows opens no modules. -/
theorem opened (h : s.Grows s') : s'.opened = s.opened := by
  unfold Session.opened
  rw [h.modules]

/-- A session grows by claims. -/
theorem ofClaims {claims : Claims} (h : s.claims <+: claims) : s.Grows { s with claims } :=
  { Session.Grows.refl s with claims := h }

/-- A session grows by a reference. -/
theorem ofReference (entry : (Int × Option Location) × String) :
    s.Grows { s with references := s.references ++ [entry] } :=
  { Session.Grows.refl s with references := ⟨[entry], rfl⟩ }

/-- A session grows by instantiations. -/
theorem ofInstantiations (entries : List ((Option Location × Shape) × String)) :
    s.Grows { s with instantiations := entries } :=
  { Session.Grows.refl s with }

end Session.Grows

/-- **A session that has advanced**: claims have been made, modules opened and
interfaces noted, and none taken back. -/
structure Session.Advances (s s' : Session) : Prop where
  /-- Claims are added. -/
  claims : s.claims <+: s'.claims
  /-- Open modules stay open. -/
  opened : s.opened ⊆ s'.opened
  /-- Noted interfaces stay noted. -/
  pending : s.pending ⊆ s'.pending

namespace Session.Advances

variable {s s' s'' : Session}

protected theorem refl (s : Session) : s.Advances s :=
  ⟨List.prefix_rfl, List.Subset.refl _, List.Subset.refl _⟩

protected theorem trans (h : s.Advances s') (h' : s'.Advances s'') : s.Advances s'' :=
  ⟨h.claims.trans h'.claims, List.Subset.trans h.opened h'.opened,
    List.Subset.trans h.pending h'.pending⟩

/-- A session that grows advances. -/
theorem of_grows (h : s.Grows s') : s.Advances s' :=
  ⟨h.claims, fun _ hk => h.opened ▸ hk, h.pending.subset⟩

end Session.Advances

end ComponentBindings
