import ComponentBindings.Proofs.Faults

/-!
# What a computation may add to a session

A run only ever adds to its session: claims, notes of interfaces that wait,
and modules. A **licence** says which of them may be added. What may be
claimed can depend on what has been claimed before – the field of a record is
claimed only once the name of the record is held – and so a computation is
judged from a given session on (`Licence.Permits`), in whatever has become of
it. It is judged whether it succeeds or fails: a collision of names is a
claim that was refused, and the licence has to allow for that claim as well
(`Licence.AllowsFault`).

The judgement is put together as computations are. What needs no session may
fail with any fault but a collision, and for that the small judgement
`NeverCollides` is enough.
-/

namespace ComponentBindings

/-! ## Faults that are no collisions -/

/-- A fault that is no collision of names. -/
def Fault.NoCollision : Fault → Prop
  | .nameCollision _ _ _ _ => False
  | _ => True

/-- **A computation that fails with no collision**, if it fails. -/
abbrev NeverCollides {α : Type} (x : Except Fault α) : Prop :=
  EndsIn Fault.NoCollision (fun _ => True) x

/-- One step after another, where the value of the first is known. -/
theorem NeverCollides.bind {α β : Type} {x : Except Fault α} {f : α → Except Fault β}
    (hx : NeverCollides x) (hf : ∀ a, x = .ok a → NeverCollides (f a)) : NeverCollides (x >>= f) :=
  EndsIn.bind (Q := fun a => x = .ok a) (by cases x <;> [exact hx; rfl]) hf

/-- An identifier is found, or the name has no word. -/
theorem neverCollides_identifierOf {c : Convention} {raw : String} :
    NeverCollides (identifierOf c raw) := by
  unfold identifierOf Convention.convert
  split <;> exact trivial

/-! ## Licences -/

/-- **What may be added to a session.** What may be claimed depends on what has
been claimed, and is not taken back when more is. -/
structure Licence where
  /-- What may be claimed. -/
  claims : Claims → Claim → Prop
  /-- More claims take nothing back. -/
  claims_mono : ∀ {before after c}, before <+: after → claims before c → claims after c
  /-- Which interfaces may be noted. -/
  notes : Int → Prop
  /-- Which modules may be opened. -/
  opens : ModuleKey → Prop

namespace Licence

variable {L : Licence} {s s' s'' before after : Session}

/-- **A session that has become another one as a licence allows.** Interfaces
are noted once, and not if their import module is open. -/
structure Allows (L : Licence) (s s' : Session) : Prop where
  /-- Claims are added. -/
  claims : s.claims <+: s'.claims
  /-- New claims are allowed. -/
  claimed : ∀ c ∈ s'.claims, c ∈ s.claims ∨ L.claims s'.claims c
  /-- Modules are added, and may be. -/
  opened : ∃ keys, s'.opened = s.opened ++ keys ∧ ∀ key ∈ keys, L.opens key
  /-- Interfaces are noted. -/
  pending : s.pending <+: s'.pending
  /-- New notes are allowed. -/
  noted : ∀ j ∈ s'.pending, j ∈ s.pending ∨ L.notes j ∧ .interface j .imported ∉ s.opened
  /-- No interface is noted twice. -/
  nodup : s.pending.Nodup → s'.pending.Nodup

/-- A session that stays as it is. -/
theorem Allows.refl (L : Licence) (s : Session) : L.Allows s s where
  claims := List.prefix_rfl
  claimed _ h := .inl h
  opened := ⟨[], (List.append_nil _).symm, fun _ h => absurd h List.not_mem_nil⟩
  pending := List.prefix_rfl
  noted _ h := .inl h
  nodup h := h

/-- What is open stays open. -/
theorem Allows.subset_opened (h : L.Allows s s') : s.opened ⊆ s'.opened := by
  obtain ⟨keys, hkeys, -⟩ := h.opened
  rw [hkeys]
  exact List.subset_append_left _ _

/-- One change after another. -/
theorem Allows.trans (h : L.Allows s s') (h' : L.Allows s' s'') : L.Allows s s'' where
  claims := h.claims.trans h'.claims
  claimed c hc := by
    cases h'.claimed c hc with
    | inl hc => exact (h.claimed c hc).imp_right (L.claims_mono h'.claims)
    | inr hc => exact .inr hc
  opened := by
    obtain ⟨keys, hkeys, hopens⟩ := h.opened
    obtain ⟨keys', hkeys', hopens'⟩ := h'.opened
    refine ⟨keys ++ keys', ?_, List.forall_mem_append.mpr ⟨hopens, hopens'⟩⟩
    rw [hkeys', hkeys, List.append_assoc]
  pending := h.pending.trans h'.pending
  noted j hj := by
    cases h'.noted j hj with
    | inl hj => exact h.noted j hj
    | inr hj => exact .inr ⟨hj.1, fun hopen => hj.2 (h.subset_opened hopen)⟩
  nodup hnodup := h'.nodup (h.nodup hnodup)

/-- The tables of a session are of no concern to a licence. -/
theorem Allows.of_eq (hclaims : s'.claims = s.claims) (hmodules : s'.opened = s.opened)
    (hpending : s'.pending = s.pending) : L.Allows s s' where
  claims := hclaims ▸ List.prefix_rfl
  claimed c hc := .inl (hclaims ▸ hc)
  opened := ⟨[], by rw [hmodules, List.append_nil], fun _ h => absurd h List.not_mem_nil⟩
  pending := hpending ▸ List.prefix_rfl
  noted j hj := .inl (hpending ▸ hj)
  nodup h := hpending ▸ h

/-- **A fault that a licence allows for**: if it is a collision, the one name
holds the identifier, and the other one might have claimed it. -/
def AllowsFault (L : Licence) (claims : Claims) (fault : Fault) : Prop :=
  ∀ scope identifier holder raw, fault = .nameCollision scope identifier holder raw →
    claims.holder? scope identifier = some holder ∧ holder ≠ raw ∧
      L.claims claims ⟨scope, identifier, raw⟩

/-- A fault that is no collision is allowed for. -/
theorem allowsFault_of_noCollision {claims : Claims} {fault : Fault} (h : fault.NoCollision) :
    L.AllowsFault claims fault := by
  rintro scope identifier holder raw rfl
  exact h.elim

/-- What is allowed only adds to a session. -/
theorem Allows.advances (h : L.Allows s s') : s.Advances s' :=
  ⟨h.claims, h.subset_opened, h.pending.subset⟩

/-- **A computation does what a licence allows** from a session on, whether it
succeeds or fails. -/
structure Permits {α : Type} (L : Licence) (before : Session) (x : Emission α) : Prop where
  /-- What is done by a success is allowed. -/
  ok : ∀ {s a s'}, before.Advances s → x s = .ok a s' → L.Allows s s'
  /-- What is done up to a fault is allowed, and the fault is. -/
  error : ∀ {s fault s'}, before.Advances s → x s = .error fault s' →
    L.Allows s s' ∧ L.AllowsFault s'.claims fault

namespace Permits

variable {α β : Type} {x : Emission α}

/-- What is permitted stays so. -/
theorem mono (h : L.Permits before x) (hmore : before.Advances after) : L.Permits after x where
  ok hs := h.ok (hmore.trans hs)
  error hs := h.error (hmore.trans hs)

/-- To return a value is permitted. -/
protected theorem pure (a : α) : L.Permits before (pure a : Emission α) where
  ok _ hrun := by
    obtain ⟨-, rfl⟩ := pure_eq_ok.mp hrun
    exact .refl L _
  error _ hrun := absurd hrun pure_ne_error

/-- To read the session is permitted. -/
protected theorem get : L.Permits before (get : Emission Session) where
  ok _ hrun := by
    obtain ⟨-, rfl⟩ := get_eq_ok.mp hrun
    exact .refl L _
  error _ hrun := absurd hrun get_ne_error

/-- A change to the session is permitted if it is allowed. -/
protected theorem modify {f : Session → Session} (h : ∀ s, before.Advances s → L.Allows s (f s)) :
    L.Permits before (modify f : Emission PUnit) where
  ok hs hrun := by
    obtain rfl := modify_eq_ok.mp hrun
    exact h _ hs
  error _ hrun := absurd hrun modify_ne_error

/-- A fault may be thrown unless it is a collision. -/
protected theorem throw {e : Fault} (he : e.NoCollision) :
    L.Permits before (throw e : Emission α) where
  ok _ hrun := absurd hrun throw_ne_ok
  error _ hrun := by
    obtain ⟨rfl, rfl⟩ := throw_eq_error.mp hrun
    exact ⟨.refl L _, allowsFault_of_noCollision he⟩

/-- One step after another, where the second one is judged from where the
first one ended. -/
theorem bind_ok (hx : L.Permits before x) {f : α → Emission β}
    (hf : ∀ {a s s'}, before.Advances s → x s = .ok a s' → L.Permits s' (f a)) :
    L.Permits before (x >>= f) where
  ok hs hrun := by
    obtain ⟨a, s₁, hfirst, hrest⟩ := bind_eq_ok.mp hrun
    exact (hx.ok hs hfirst).trans ((hf hs hfirst).ok (.refl _) hrest)
  error hs hrun := by
    cases bind_eq_error.mp hrun with
    | inl hfirst => exact hx.error hs hfirst
    | inr hrest =>
      obtain ⟨a, s₁, hfirst, hrest⟩ := hrest
      obtain ⟨hallows, hfault⟩ := (hf hs hfirst).error (.refl _) hrest
      exact ⟨(hx.ok hs hfirst).trans hallows, hfault⟩

/-- One step after another. -/
protected theorem bind (hx : L.Permits before x) {f : α → Emission β}
    (hf : ∀ a, (∃ s s', x s = .ok a s') → L.Permits before (f a)) : L.Permits before (x >>= f) :=
  hx.bind_ok fun hs hrun => (hf _ ⟨_, _, hrun⟩).mono (hs.trans (hx.ok hs hrun).advances)

/-- A fault may end a chain unless it is a collision. -/
protected theorem throw_bind {e : Fault} (he : e.NoCollision) {f : α → Emission β} :
    L.Permits before ((throw e : Emission α) >>= f) :=
  (Permits.throw he).bind fun _ ⟨_, _, h⟩ => absurd h throw_ne_ok

/-- A result is mapped. -/
protected theorem map (hx : L.Permits before x) (f : α → β) : L.Permits before (f <$> x) where
  ok hs hrun := by
    obtain ⟨a, hrun, -⟩ := map_eq_ok.mp hrun
    exact hx.ok hs hrun
  error hs hrun := hx.error hs (map_eq_error.mp hrun)

/-- To be permitted is kept by chains. -/
theorem keptByChains : KeptByChains fun (α : Type) (x : Emission α) => L.Permits before x where
  pure := .pure
  bind hx hf := hx.bind fun a _ => hf a

/-- A list is walked item by item. -/
protected theorem mapM {f : α → Emission β} {xs : List α}
    (hf : ∀ x ∈ xs, L.Permits before (f x)) : L.Permits before (xs.mapM f) :=
  keptByChains.mapM hf

/-- A list is sifted item by item. -/
protected theorem filterMapM {f : α → Emission (Option β)} {xs : List α}
    (hf : ∀ x ∈ xs, L.Permits before (f x)) : L.Permits before (xs.filterMapM f) :=
  keptByChains.filterMapM hf

/-- A walk over a list is permitted if its steps are. -/
protected theorem forM {f : α → Emission PUnit} {xs : List α}
    (hf : ∀ x ∈ xs, L.Permits before (f x)) : L.Permits before (xs.forM f) :=
  keptByChains.forM hf

/-- What needs no session is permitted unless it fails with a collision. -/
protected theorem ofExcept {x : Except Fault α} (hx : NeverCollides x) :
    L.Permits before (Emission.ofExcept x) := by
  cases x with
  | ok a => exact .pure a
  | error e => exact .throw hx

/-- What needs no session, and what goes on from its value. -/
protected theorem ofExcept_bind {x : Except Fault α} (hx : NeverCollides x) {f : α → Emission β}
    (hf : ∀ a, x = .ok a → L.Permits before (f a)) :
    L.Permits before (Emission.ofExcept x >>= f) :=
  (Permits.ofExcept hx).bind fun a ⟨_, _, hrun⟩ => hf a (Emission.ofExcept_eq_ok.mp hrun).1

/-! ### Claims -/

variable {c : Convention} {scope identifier raw : String}

/-- **A claim is permitted if it is allowed**, whether it is granted or
refused. -/
protected theorem claim (h : L.claims before.claims ⟨scope, identifier, raw⟩) :
    L.Permits before (Emission.ofNaming (claim scope identifier raw)) where
  ok hs hrun := by
    simp only [Emission.ofNaming_eq_ok, claim_eq_ok] at hrun
    obtain ⟨claims, hregister, rfl⟩ := hrun
    have hmore := Claims.isPrefix_of_register hregister
    refine ⟨hmore, fun c hc => ?_, ⟨[], (List.append_nil _).symm, by simp⟩, List.prefix_rfl,
      fun j hj => .inl hj, id⟩
    cases Claims.mem_of_register hregister hc with
    | inl hc => exact .inl hc
    | inr heq => exact .inr (heq ▸ L.claims_mono (hs.claims.trans hmore) h)
  error {s fault s'} hs hrun := by
    unfold Emission.ofNaming claim at hrun
    cases hregister : s.claims.register scope identifier raw with
    | ok claims => simp [hregister] at hrun
    | error fault' =>
      simp only [hregister, EStateM.Result.error.injEq] at hrun
      obtain ⟨rfl, rfl⟩ := hrun
      obtain ⟨holder, hholder, hne, rfl⟩ := Claims.register_eq_error.mp hregister
      refine ⟨.refl L s, ?_⟩
      rintro _ _ _ _ ⟨⟩
      exact ⟨hholder, hne, L.claims_mono hs.claims h⟩

/-- A conversion is permitted. -/
protected theorem convert : L.Permits before (Emission.ofNaming (convert c raw)) := by
  have hconvert : Emission.ofNaming (convert c raw) = Emission.ofExcept (identifierOf c raw) := by
    unfold convert
    cases identifierOf c raw <;> rfl
  rw [hconvert]
  exact .ofExcept neverCollides_identifierOf

/-- **A declaration and what follows** are permitted if the claim of the
identifier is allowed, and what follows is permitted once the name holds
it. -/
protected theorem declare_bind {f : String → Emission β}
    (h : ∀ name, identifierOf c raw = .ok name → L.claims before.claims ⟨scope, name, raw⟩)
    (hf : ∀ name after, identifierOf c raw = .ok name → before.Advances after →
      after.claims.holder? scope name = some raw → L.Permits after (f name)) :
    L.Permits before (Emission.ofNaming (declare c raw scope) >>= f) := by
  have hdeclare : L.Permits before (Emission.ofNaming (declare c raw scope)) := by
    unfold declare
    rw [Emission.ofNaming_bind]
    refine Permits.convert.bind fun name ⟨s, s', hname⟩ => ?_
    simp only [Emission.ofNaming_eq_ok, convert_eq_ok] at hname
    obtain ⟨_, ⟨hname, -⟩, -⟩ := hname
    rw [Emission.ofNaming_bind]
    exact (Permits.claim (h name hname)).bind fun _ _ => .pure name
  refine hdeclare.bind_ok fun hs hrun => ?_
  have hallows := hdeclare.ok hs hrun
  simp only [Emission.ofNaming_eq_ok, declare_eq_ok] at hrun
  obtain ⟨claims, ⟨hname, hregister⟩, rfl⟩ := hrun
  exact hf _ _ hname (hs.trans hallows.advances) (Claims.holder?_of_register hregister)

/-- A declaration is permitted if the claim of the identifier is allowed. -/
protected theorem declare
    (h : ∀ name, identifierOf c raw = .ok name → L.claims before.claims ⟨scope, name, raw⟩) :
    L.Permits before (Emission.ofNaming (declare c raw scope)) := by
  have hbind : L.Permits before (Emission.ofNaming (declare c raw scope) >>= pure) :=
    .declare_bind h fun name _ _ _ _ => .pure name
  rwa [bind_pure] at hbind

end Permits

end Licence

end ComponentBindings
