import ComponentBindings.Layout
import ComponentBindings.Proofs.Claims

/-!
# The faults of a run

The faults of `Fault` are the faults of the whole program, and most of them
have no business in a run over a graph that has been read. Ids have been
checked by then, so nothing dangles; what a document may do wrong it has done;
and the keys of a JSON document are texts, so that an interface can be called
by one. What remains is `Fault.OfGeneration`: a world that cannot be chosen, a
feature that the target lacks, names that meet, flags that do not fit, and
entries that lack a name where they need one.

That a run fails with nothing else is proved by a type system in small.
`FailsWithin` says of a computation on a session that whatever it fails with
is a fault of generation, in any session, and `Ends` says the same of one
without a session, with what is known of its value. Both are put together as
computations are. The claims that names make and the locations of modules are
the first to be judged, because they need no graph.
-/

namespace ComponentBindings

/-- **The faults that a run over a closed graph can end with.** -/
def Fault.OfGeneration : Fault → Prop
  | .ambiguousWorld _ | .unknownWorld _ _ | .unsupportedKind _ _ | .exportedResource _ _
  | .nameCollision _ _ _ _ | .tooManyFlags _ _ | .noIdentifier _ | .unnamedInterface _
  | .unnamedType _ | .selfReference _ | .unnamedDeclaration _ _ | .undeclarable _ => True
  | .unreadable | .unrepresentable _ | .notEnumerable | .malformed _ _ | .dangling _ _ _
  | .notText _ | .notComposite _ | .alreadyRendered _ => False

/-! ## Computations without a session -/

section Ends

variable {α β : Type} {F : Fault → Prop} {Q : α → Prop} {Q' : β → Prop}

/-- **A computation ends as it may**: with a value of which something is
known, or with a fault that is allowed. -/
def EndsIn (F : Fault → Prop) (Q : α → Prop) : Except Fault α → Prop
  | .ok a => Q a
  | .error e => F e

/-- **A computation ends well**: with a value of which something is known, or
with a fault of generation. -/
abbrev Ends (Q : α → Prop) : Except Fault α → Prop := EndsIn Fault.OfGeneration Q

/-- What is known of a value may be said in weaker terms. -/
theorem EndsIn.imp {x : Except Fault α} (hx : EndsIn F Q x) {P : α → Prop} (h : ∀ a, Q a → P a) :
    EndsIn F P x := by
  cases x with
  | ok a => exact h a hx
  | error e => exact hx

/-- A computation that ends well and has a value has one of which this is
known. -/
theorem EndsIn.of_eq_ok {x : Except Fault α} (hx : EndsIn F Q x) {a : α} (h : x = .ok a) : Q a := by
  rw [h] at hx
  exact hx

/-- One step after another. -/
theorem EndsIn.bind {x : Except Fault α} {f : α → Except Fault β} (hx : EndsIn F Q x)
    (hf : ∀ a, Q a → EndsIn F Q' (f a)) : EndsIn F Q' (x >>= f) := by
  cases x with
  | ok a => exact hf a hx
  | error e => exact hx

/-- A mapped result ends as the computation does. -/
theorem EndsIn.map {x : Except Fault α} {f : α → β} (hx : EndsIn F (fun a => Q' (f a)) x) :
    EndsIn F Q' (f <$> x) := by
  cases x with
  | ok a => exact hx
  | error e => exact hx

/-- What is known of the end may be said in weaker terms. -/
theorem EndsIn.mono {x : Except Fault α} (hx : EndsIn F Q x) {F' : Fault → Prop} {P : α → Prop}
    (hfault : ∀ e, F e → F' e) (hvalue : ∀ a, Q a → P a) : EndsIn F' P x := by
  cases x with
  | ok a => exact hvalue a hx
  | error e => exact hfault e hx

/-- A list is read item by item. -/
theorem EndsIn.mapM {f : α → Except Fault β} {xs : List α} (hf : ∀ x ∈ xs, EndsIn F Q' (f x)) :
    EndsIn F (fun ys => ∀ y ∈ ys, Q' y) (xs.mapM f) := by
  induction xs with
  | nil => exact fun y hy => absurd hy List.not_mem_nil
  | cons x xs ih =>
    rw [List.mapM_cons]
    refine (hf x List.mem_cons_self).bind fun y hy => ?_
    refine (ih fun z hz => hf z (List.mem_cons_of_mem x hz)).bind fun ys hys => ?_
    exact List.forall_mem_cons.mpr ⟨hy, hys⟩

/-- How a computation may fail is kept by chains. -/
theorem endsIn_keptByChains :
    KeptByChains fun (α : Type) (x : Except Fault α) => EndsIn F (fun _ => True) x where
  pure _ := trivial
  bind hx hf := hx.bind fun a _ => hf a

/-- A walk over a list ends as it may if it does at every item. -/
theorem EndsIn.forM {f : α → Except Fault Unit} {xs : List α}
    (hf : ∀ x ∈ xs, EndsIn F (fun _ => True) (f x)) : EndsIn F (fun _ => True) (xs.forM f) :=
  endsIn_keptByChains.forM hf

/-- A step that is taken where there is a value ends as it may if it does
there. -/
theorem EndsIn.optionForM {f : α → Except Fault Unit} {o : Option α}
    (hf : ∀ x, o = some x → EndsIn F (fun _ => True) (f x)) :
    EndsIn F (fun _ => True) (o.forM f) := by
  cases o with
  | none => trivial
  | some x => exact hf x rfl

/-- A list is sifted item by item. -/
theorem EndsIn.filterMapM {f : α → Except Fault (Option β)} {xs : List α}
    (hf : ∀ x ∈ xs, EndsIn F (fun _ => True) (f x)) :
    EndsIn F (fun _ => True) (xs.filterMapM f) :=
  endsIn_keptByChains.filterMapM hf

end Ends

/-! ## Computations on a session -/

section FailsWithin

variable {σ α β : Type}

/-- **Whatever a computation fails with is a fault of generation.** -/
def FailsWithin (x : EStateM Fault σ α) : Prop :=
  ∀ s e s', x s = .error e s' → e.OfGeneration

namespace FailsWithin

/-- Returning a value does not fail. -/
protected theorem pure (a : α) : FailsWithin (pure a : EStateM Fault σ α) :=
  fun _ _ _ h => absurd h pure_ne_error

/-- A fault of generation may be thrown. -/
protected theorem throw {e : Fault} (he : e.OfGeneration) :
    FailsWithin (throw e : EStateM Fault σ α) := by
  intro s e' s' h
  obtain ⟨rfl, -⟩ := throw_eq_error.mp h
  exact he

/-- Reading the state does not fail. -/
protected theorem get : FailsWithin (get : EStateM Fault σ σ) :=
  fun _ _ _ h => absurd h get_ne_error

/-- A change to the state does not fail. -/
protected theorem modify (f : σ → σ) :
    FailsWithin (modify f : EStateM Fault σ PUnit) :=
  fun _ _ _ h => absurd h modify_ne_error

/-- One step after another. -/
protected theorem bind {x : EStateM Fault σ α} {f : α → EStateM Fault σ β} (hx : FailsWithin x)
    (hf : ∀ a, (∃ s s', x s = .ok a s') → FailsWithin (f a)) : FailsWithin (x >>= f) := by
  intro s e s'' h
  rcases bind_eq_error.mp h with h | ⟨a, s', ha, h⟩
  · exact hx s e s'' h
  · exact hf a ⟨s, s', ha⟩ s' e s'' h

/-- A fault of generation may end a chain. -/
protected theorem throw_bind {e : Fault} (he : e.OfGeneration) {f : α → EStateM Fault σ β} :
    FailsWithin ((throw e : EStateM Fault σ α) >>= f) :=
  (FailsWithin.throw he).bind fun _ ⟨_, _, h⟩ => absurd h throw_ne_ok

/-- A result is mapped. -/
protected theorem map {x : EStateM Fault σ α} (hx : FailsWithin x) (f : α → β) :
    FailsWithin (f <$> x) :=
  fun s e s' h => hx s e s' (map_eq_error.mp h)

/-- To fail within generation is kept by chains. -/
theorem keptByChains : KeptByChains fun (α : Type) (x : EStateM Fault σ α) => FailsWithin x where
  pure := .pure
  bind hx hf := hx.bind fun a _ => hf a

/-- A list is walked item by item. -/
protected theorem mapM {f : α → EStateM Fault σ β} {xs : List α}
    (hf : ∀ x ∈ xs, FailsWithin (f x)) : FailsWithin (xs.mapM f) :=
  keptByChains.mapM hf

/-- A list is sifted item by item. -/
protected theorem filterMapM {f : α → EStateM Fault σ (Option β)} {xs : List α}
    (hf : ∀ x ∈ xs, FailsWithin (f x)) : FailsWithin (xs.filterMapM f) :=
  keptByChains.filterMapM hf

/-- A walk over a list fails as its steps do. -/
protected theorem forM {f : α → EStateM Fault σ PUnit} {xs : List α}
    (hf : ∀ x ∈ xs, FailsWithin (f x)) : FailsWithin (xs.forM f) :=
  keptByChains.forM hf

/-- What ends well without a session does in one. -/
protected theorem ofExcept {Q : α → Prop} {x : Except Fault α} (hx : Ends Q x) :
    FailsWithin (Emission.ofExcept x) := by
  intro s e s' h
  obtain ⟨rfl, -⟩ := Emission.ofExcept_eq_error.mp h
  exact hx

/-- **What ends well without a session, and then goes on in one.** -/
protected theorem ofExcept_bind {Q : α → Prop} {x : Except Fault α} {f : α → Emission β}
    (hx : Ends Q x) (hf : ∀ a, Q a → FailsWithin (f a)) : FailsWithin (Emission.ofExcept x >>= f) :=
  (FailsWithin.ofExcept hx).bind fun a ⟨_, _, ha⟩ =>
    hf a (hx.of_eq_ok (Emission.ofExcept_eq_ok.mp ha).1)

/-- Claims fail in a session as they do alone. -/
protected theorem ofNaming {x : Naming α} (hx : FailsWithin x) :
    FailsWithin (Emission.ofNaming x) := by
  intro s e s' h
  unfold Emission.ofNaming at h
  cases hrun : x s.claims with
  | ok a claims => simp [hrun] at h
  | error e' claims =>
    simp only [hrun, EStateM.Result.error.injEq] at h
    obtain ⟨rfl, -⟩ := h
    exact hx _ _ _ hrun

end FailsWithin

end FailsWithin

/-! ## Names and locations -/

section Names

variable {c : Convention} {raw scope identifier : String}

/-- A name may have no word. -/
theorem ends_identifierOf : Ends (fun _ => True) (identifierOf c raw) := by
  unfold identifierOf Convention.convert
  split <;> exact trivial

/-- A name without a word cannot be converted. -/
theorem failsWithin_convert : FailsWithin (convert c raw) := by
  intro claims e claims' h
  have hends : Ends (fun _ => True) (identifierOf c raw) := ends_identifierOf
  unfold convert at h
  cases hname : identifierOf c raw with
  | ok name => simp [hname] at h
  | error fault =>
    rw [hname] at hends h
    obtain ⟨rfl, -⟩ := throw_eq_error.mp h
    exact hends

/-- A claim fails where another name holds the identifier. -/
theorem failsWithin_claim : FailsWithin (claim scope identifier raw) := by
  intro claims e claims' h
  unfold claim Claims.register at h
  cases hholder : claims.holder? scope identifier with
  | none => simp [hholder] at h
  | some holder =>
    by_cases hsame : holder = raw
    · simp [hholder, hsame] at h
    · simp only [hholder, hsame, if_false, EStateM.Result.error.injEq] at h
      obtain ⟨rfl, -⟩ := h
      trivial

/-- A name is declared by converting it and claiming the identifier. -/
theorem failsWithin_declare : FailsWithin (declare c raw scope) :=
  failsWithin_convert.bind fun name _ => failsWithin_claim.bind fun _ _ => .pure name

/-- The segments of a package are declared. -/
theorem Layout.failsWithin_packageSegments (l : Layout) (package : Option PackageName)
    (direction : Direction) : FailsWithin (l.packageSegments package direction) := by
  unfold packageSegments
  cases package with
  | none => exact .pure _
  | some p =>
    exact failsWithin_declare.bind fun _ _ => failsWithin_declare.bind fun _ _ => .pure _

/-- A container is named like its module or converted. -/
theorem Layout.failsWithin_containerName {module name : String} (direction : Direction) :
    FailsWithin (containerName module name direction) := by
  cases direction with
  | imported => exact .pure _
  | exported => exact failsWithin_convert

/-- An interface is located by declaring its names. -/
theorem Layout.failsWithin_interfaceLocation (l : Layout) (package : Option PackageName)
    (name : String) (direction : Direction) :
    FailsWithin (l.interfaceLocation package name direction) := by
  unfold interfaceLocation
  exact (l.failsWithin_packageSegments package direction).bind fun segments _ =>
    failsWithin_declare.bind fun module _ => failsWithin_claim.bind fun _ _ =>
      (failsWithin_containerName direction).bind fun container _ => .pure _

/-- A world is located by declaring its name. -/
theorem Layout.failsWithin_worldLocation (l : Layout) (name : String) (direction : Direction) :
    FailsWithin (l.worldLocation name direction) := by
  unfold worldLocation
  exact failsWithin_convert.bind fun module _ => failsWithin_claim.bind fun _ _ =>
    (failsWithin_containerName direction).bind fun container _ => .pure _

/-- A layout is started by claiming the root of the exports. -/
theorem Layout.failsWithin_start (base : List String) : FailsWithin (Layout.start base) :=
  failsWithin_claim.bind fun _ _ => .pure _

end Names

end ComponentBindings
