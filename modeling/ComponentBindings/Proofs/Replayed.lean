import ComponentBindings.Proofs.Run

/-!
# What is emitted is emitted again

Take a run that has come to its end, and a step that it made on the way. The
same step succeeds with the same result in any other session that holds
nothing against it: one in which whatever is held or noted is held or noted
in the end of that run (`Session.Within`). A claim that the step makes was
granted in the run, so nobody else holds the identifier there. A text that
the other session remembers is the one that the placement prescribes, and a
text that only the run remembered can be built anew, since the owners it
refers to were located in the run.

`Placement.Stable` says this of an emission. It is put together as the
emission is, with one rule for each way to combine steps; the only steps that
need an argument of their own are claims (`Stable.claim`) and texts that may
be remembered on one side and not on the other
(`Renderer.Retraces.replays_renderShape`).
-/

namespace ComponentBindings

namespace Placement

variable {p : Placement} {all : Session} {α β : Type}

/-- **A result that a computation has again** in every coherent session that is
redeemed by a given one. -/
def Replays (p : Placement) (all : Session) (x : Emission α) (b : α) : Prop :=
  ∀ t, p.Coherent t → t.Within all →
    ∃ t', x t = .ok b t' ∧ p.Coherent t' ∧ t.Grows t' ∧ t'.Within all

/-- The sessions that a given one redeems. -/
def View.within (all : Session) : View Unit where
  fits s _ := s.Within all
  of_grows hgrows hwithin := hwithin.of_advances (.of_grows hgrows)

/-- **A computation whose results it has again**, once the session that it
leaves behind is redeemed. -/
def Stable (p : Placement) (all : Session) (x : Emission α) : Prop :=
  p.Yields (.within all) x fun _ b => p.Replays all x b

namespace Replays

/-- What leaves a coherent session behind is replayed if it succeeds and claims
and notes no more than the run. -/
theorem of_yields {κ : Type} {v : View κ} {x : Emission α} {Q : κ → α → Prop} {b : α}
    (hx : p.Yields v x Q)
    (h : ∀ t, p.Coherent t → t.Within all → ∃ t', x t = .ok b t' ∧ t'.Within all) :
    p.Replays all x b := by
  intro t ht hwithin
  obtain ⟨t', hrun, hwithin'⟩ := h t ht hwithin
  obtain ⟨ht', hgrows, -⟩ := hx t b t' ht hrun
  exact ⟨t', hrun, ht', hgrows, hwithin'⟩

/-- A value is returned again. -/
theorem pure {b : α} : p.Replays all (Pure.pure b) b :=
  fun t ht hwithin => ⟨t, rfl, ht, .refl t, hwithin⟩

/-- A result that needs no session is had again. -/
theorem ofExcept {x : Except Fault α} {b : α} (h : x = .ok b) :
    p.Replays all (Emission.ofExcept x) b := by
  rw [h]
  exact pure

/-- One step is replayed after another. -/
theorem bind {x : Emission α} {f : α → Emission β} {a : α} {b : β} (hx : p.Replays all x a)
    (hf : p.Replays all (f a) b) : p.Replays all (x >>= f) b := by
  intro t ht hwithin
  obtain ⟨t₁, hrun, ht₁, hgrows, hwithin₁⟩ := hx t ht hwithin
  obtain ⟨t₂, hrun', ht₂, hgrows', hwithin₂⟩ := hf t₁ ht₁ hwithin₁
  exact ⟨t₂, bind_eq_ok.mpr ⟨a, t₁, hrun, hrun'⟩, ht₂, hgrows.trans hgrows', hwithin₂⟩

/-- A mapped result is had again. -/
theorem map {x : Emission α} {a : α} (f : α → β) (hx : p.Replays all x a) :
    p.Replays all (f <$> x) (f a) := by
  intro t ht hwithin
  obtain ⟨t', hrun, hrest⟩ := hx t ht hwithin
  exact ⟨t', map_eq_ok.mpr ⟨a, hrun, rfl⟩, hrest⟩

/-- A claim is granted again. -/
theorem claim {scope identifier raw : String}
    (hheld : all.claims.holder? scope identifier = some raw) :
    p.Replays all (Emission.ofNaming (ComponentBindings.claim scope identifier raw)) () := by
  refine of_yields (v := .claims) Yields.claim fun t _ hwithin => ?_
  obtain ⟨claims, hregister, hclaims⟩ := Claims.Within.register hwithin.claims hheld
  exact ⟨{ t with claims }, Emission.ofNaming_eq_ok.mpr ⟨claims, claim_eq_ok.mpr hregister, rfl⟩,
    hclaims, hwithin.opened, hwithin.pending⟩

end Replays

namespace Stable

variable {x : Emission α}

/-- A value is returned. -/
theorem pure (b : α) : p.Stable all (Pure.pure b) :=
  Yields.pure fun _ => Replays.pure

/-- One step after another. -/
theorem bind {f : α → Emission β} (hx : p.Stable all x) (hf : ∀ a, p.Stable all (f a)) :
    p.Stable all (x >>= f) :=
  Yields.bind hx fun a => (hf a).imp fun _ _ hb ha => ha.bind hb

/-- A result is mapped. -/
theorem map (f : α → β) (hx : p.Stable all x) : p.Stable all (f <$> x) :=
  Yields.map f (hx.imp fun _ _ ha => ha.map f)

/-- A fault is thrown. -/
theorem throw (e : Fault) : p.Stable all (MonadExcept.throw e : Emission α) :=
  Yields.throw

/-- A fault ends a chain. -/
theorem throw_bind {e : Fault} {f : α → Emission β} :
    p.Stable all ((MonadExcept.throw e : Emission α) >>= f) :=
  Yields.throw_bind

/-- A result that needs no session. -/
theorem ofExcept (x : Except Fault α) : p.Stable all (Emission.ofExcept x) := by
  cases x with
  | ok a => exact pure a
  | error e => exact throw e

/-- **A claim is made.** -/
theorem claim (scope identifier raw : String) :
    p.Stable all (Emission.ofNaming (ComponentBindings.claim scope identifier raw)) := by
  intro s u s' hs hrun
  obtain ⟨hs', hgrows, -⟩ := Yields.claim (v := .claims) s u s' hs hrun
  refine ⟨hs', hgrows, fun _ hwithin => Replays.claim (hwithin.claims ?_)⟩
  obtain ⟨claims, hclaim, rfl⟩ := Emission.ofNaming_eq_ok.mp hrun
  exact Claims.holder?_of_register (claim_eq_ok.mp hclaim)

/-- Claims are made one after the other. -/
theorem naming_bind {x : Naming α} {f : α → Naming β} (hx : p.Stable all (Emission.ofNaming x))
    (hf : ∀ a, p.Stable all (Emission.ofNaming (f a))) :
    p.Stable all (Emission.ofNaming (x >>= f)) := by
  rw [Emission.ofNaming_bind]
  exact hx.bind hf

/-- A value is returned without a claim. -/
theorem naming_pure (b : α) : p.Stable all (Emission.ofNaming (Pure.pure b)) :=
  pure b

/-- A conversion needs no claim. -/
theorem convert {c : Convention} {raw : String} :
    p.Stable all (Emission.ofNaming (ComponentBindings.convert c raw)) := by
  unfold ComponentBindings.convert
  cases identifierOf c raw with
  | ok identifier => exact pure identifier
  | error e => exact throw e

/-- A name is declared. -/
theorem declare {c : Convention} {raw scope : String} :
    p.Stable all (Emission.ofNaming (ComponentBindings.declare c raw scope)) :=
  naming_bind convert fun _ => naming_bind (claim _ _ _) fun _ => naming_pure _

/-- A list is walked item by item. -/
theorem mapM {f : α → Emission β} (xs : List α) (hf : ∀ x ∈ xs, p.Stable all (f x)) :
    p.Stable all (xs.mapM f) := by
  induction xs with
  | nil => exact pure []
  | cons x xs ih =>
    rw [List.mapM_cons]
    exact (hf x List.mem_cons_self).bind fun _ =>
      (ih fun y hy => hf y (List.mem_cons_of_mem x hy)).bind fun _ => pure _

/-- A list is walked item by item, and some items come to nothing. -/
theorem filterMapM {f : α → Emission (Option β)} (xs : List α)
    (hf : ∀ x ∈ xs, p.Stable all (f x)) : p.Stable all (xs.filterMapM f) := by
  induction xs with
  | nil => exact pure []
  | cons x xs ih =>
    rw [List.filterMapM_cons]
    have htail := ih fun y hy => hf y (List.mem_cons_of_mem x hy)
    refine (hf x List.mem_cons_self).bind fun y => ?_
    cases y with
    | none => exact htail
    | some y => exact htail.bind fun _ => pure _

end Stable

end Placement

/-! ## Locations -/

namespace Layout

open Placement

variable {p : Placement} {all : Session} (l : Layout)

/-- The segments of a package are found again. -/
theorem stable_packageSegments (package : Option PackageName) (direction : Direction) :
    p.Stable all (Emission.ofNaming (l.packageSegments package direction)) := by
  unfold packageSegments
  cases package with
  | none => exact Stable.naming_pure _
  | some package =>
    exact Stable.naming_bind Stable.declare fun _ => Stable.naming_bind Stable.declare fun _ =>
      Stable.naming_pure _

/-- The container of a module is found again. -/
theorem stable_containerName (module name : String) (direction : Direction) :
    p.Stable all (Emission.ofNaming (containerName module name direction)) := by
  cases direction with
  | imported => exact Stable.naming_pure _
  | exported => exact Stable.convert

/-- The location of an interface is found again. -/
theorem stable_interfaceLocation (package : Option PackageName) (name : String)
    (direction : Direction) :
    p.Stable all (Emission.ofNaming (l.interfaceLocation package name direction)) :=
  Stable.naming_bind (l.stable_packageSegments package direction) fun _ =>
    Stable.naming_bind Stable.declare fun _ => Stable.naming_bind (Stable.claim _ _ _) fun _ =>
      Stable.naming_bind (stable_containerName _ name direction) fun _ => Stable.naming_pure _

/-- The location of a world is found again. -/
theorem stable_worldLocation (name : String) (direction : Direction) :
    p.Stable all (Emission.ofNaming (l.worldLocation name direction)) :=
  Stable.naming_bind Stable.convert fun _ => Stable.naming_bind (Stable.claim _ _ _) fun _ =>
    Stable.naming_bind (stable_containerName _ name direction) fun _ => Stable.naming_pure _

end Layout

/-! ## Texts -/

/-- **A renderer that finds owners again**: whatever was asked for in a session
that is redeemed is located once more in any other. -/
structure Renderer.Retraces (r : Renderer) (p : Placement) (all : Session) : Prop
    extends r.Follows p where
  /-- An owner that was asked for is located again. -/
  replays : ∀ {o s location}, p.noted o s → s.Within all → p.place o = .ok location →
    p.Replays all (r.locate o) location

namespace Renderer

open Placement

variable {r : Renderer} {p : Placement} {all s : Session} {text : String}

/-- **A reference that is on record in a run is made again**, whether it is on
record or not. -/
theorem Retraces.replays_reference (hr : r.Retraces p all) (hs : p.Coherent s)
    (hwithin : s.Within all) {t : TypeDef} (ht : p.graph.typeDef t.id = .ok t)
    (hknown : s.wording r.scope t.id = some text) : p.Replays all (r.reference t) text := by
  refine .of_yields (hr.emits_reference ht) fun s₁ hs₁ hwithin₁ => ?_
  have htext := hs.references hknown
  cases hrecord : s₁.references.lookup (t.id, r.scope) with
  | some known =>
    obtain rfl : known = text := Except.ok.inj ((hs₁.references hrecord).symm.trans htext)
    exact ⟨s₁, reference_of_known hrecord, hwithin₁⟩
  | none =>
    rw [reference_of_new hrecord]
    -- The owner was asked for when the reference was made in the run.
    have hnew : ∃ s₂, r.newReference t s₁ = .ok text s₂ ∧ s₂.Within all := by
      simp only [referenceText, ht, except_bind_eq_ok, Except.ok.injEq, exists_eq_left'] at htext
      obtain ⟨name, hname, htext⟩ := htext
      simp only [newReference, hname, bind_eq_ok, Emission.ofExcept_eq_ok, Except.ok.injEq]
      cases howner : t.owner with
      | none =>
        simp only [howner, except_pure_eq_ok] at htext
        exact ⟨s₁, ⟨name, s₁, ⟨rfl, rfl⟩, pure_eq_ok.mpr ⟨htext, rfl⟩⟩, hwithin₁⟩
      | some owner =>
        simp only [howner, except_bind_eq_ok, except_pure_eq_ok] at htext
        obtain ⟨location, hplace, htext⟩ := htext
        obtain ⟨s₂, hlocate, -, -, hwithin₂⟩ :=
          hr.replays (hs.noted hknown ht howner) hwithin hplace s₁ hs₁ hwithin₁
        refine ⟨s₂, ⟨name, s₁, ⟨rfl, rfl⟩, ?_⟩, hwithin₂⟩
        exact bind_eq_ok.mpr ⟨location, s₂, hlocate, pure_eq_ok.mpr ⟨htext, rfl⟩⟩
    obtain ⟨s₂, hrun, hwithin₂⟩ := hnew
    simp only [bind_eq_ok, modify_eq_ok, pure_eq_ok]
    exact ⟨_, ⟨text, s₂, hrun, (), _, rfl, rfl, rfl⟩, hwithin₂.claims, hwithin₂.opened,
      hwithin₂.pending⟩

/-- A reference by id that is on record in a run is made again. -/
theorem Retraces.replays_referenceTo (hr : r.Retraces p all) (hs : p.Coherent s)
    (hwithin : s.Within all) {id : Int} (hknown : s.wording r.scope id = some text) :
    p.Replays all (r.referenceTo id) text := by
  have htext := hs.references hknown
  obtain ⟨t, ht, -⟩ := except_bind_eq_ok.mp htext
  obtain rfl : t.id = id := p.orderly.typeDef_id ht
  unfold referenceTo
  rw [hr.graph]
  exact (Replays.ofExcept ht).bind (hr.replays_reference hs hwithin ht hknown)

/-- A composite that can be built again is written again, whether it is on
file or not. -/
theorem Retraces.replays_composite (hr : r.Retraces p all) (hs : p.Coherent s) {shape : Shape}
    {build : Emission String} (hshape : r.renderShape shape = r.remembered shape build)
    (hspell : shape.spell (s.wording r.scope) = some text) (hbuild : p.Replays all build text) :
    p.Replays all (r.renderShape shape) text := by
  refine .of_yields (hr.emits_renderShape shape) fun s₁ hs₁ hwithin₁ => ?_
  rw [hshape]
  cases hfile : s₁.instantiations.lookup (tableKey r.scope shape) with
  | some known =>
    have hknown := Shape.spell_mono (hs₁.extends_wording r.scope) (hs₁.instantiations hfile)
    have htext := Shape.spell_mono (hs.extends_wording r.scope) hspell
    obtain rfl : known = text := Option.some.inj (hknown.symm.trans htext)
    exact ⟨s₁, remembered_of_known hfile, hwithin₁⟩
  | none =>
    obtain ⟨s₂, hrun, -, -, hwithin₂⟩ := hbuild s₁ hs₁ hwithin₁
    rw [remembered_of_new hfile]
    simp only [bind_eq_ok, modify_eq_ok, pure_eq_ok]
    exact ⟨_, ⟨text, s₂, hrun, (), _, rfl, rfl, rfl⟩, hwithin₂.claims, hwithin₂.opened,
      hwithin₂.pending⟩

mutual

/-- **A shape that a run can spell is rendered again.** -/
theorem Retraces.replays_renderShape (hr : r.Retraces p all) (hs : p.Coherent s)
    (hwithin : s.Within all) : (shape : Shape) → ∀ {text},
      shape.spell (s.wording r.scope) = some text → p.Replays all (r.renderShape shape) text
  | .unit, text, h => by
    rw [renderShape]
    exact Option.some.inj h ▸ Replays.pure
  | .primitive _, text, h => by
    rw [renderShape]
    exact Option.some.inj h ▸ Replays.pure
  | .named id, text, h => by
    rw [renderShape]
    exact hr.replays_referenceTo hs hwithin h
  | .handle resource, text, h =>
    hr.replays_composite hs (by rw [renderShape]) h (hr.replays_referenceTo hs hwithin h)
  | .list element, text, h => by
    obtain ⟨part, hpart, htext⟩ := Option.bind_eq_some_iff.mp h
    refine hr.replays_composite hs (by rw [renderShape]) h ?_
    exact (hr.replays_renderShape hs hwithin element hpart).bind
      (Option.some.inj htext ▸ Replays.pure)
  | .option element, text, h => by
    obtain ⟨part, hpart, htext⟩ := Option.bind_eq_some_iff.mp h
    refine hr.replays_composite hs (by rw [renderShape]) h ?_
    exact (hr.replays_renderShape hs hwithin element hpart).bind
      (Option.some.inj htext ▸ Replays.pure)
  | .aliasOf target, text, h =>
    hr.replays_composite hs (by rw [renderShape]) h (hr.replays_renderShape hs hwithin target h)
  | .result ok err, text, h => by
    obtain ⟨okText, hok, h'⟩ := Option.bind_eq_some_iff.mp h
    obtain ⟨errText, herr, htext⟩ := Option.bind_eq_some_iff.mp h'
    refine hr.replays_composite hs (by rw [renderShape]) h ?_
    exact (hr.replays_renderShape hs hwithin ok hok).bind
      ((hr.replays_renderShape hs hwithin err herr).bind (Option.some.inj htext ▸ Replays.pure))
  | .tuple items, text, h => by
    obtain ⟨parts, hparts, htext⟩ := Option.bind_eq_some_iff.mp h
    refine hr.replays_composite hs (by rw [renderShape]) h ?_
    exact (hr.replays_renderShapes hs hwithin items hparts).bind
      (Option.some.inj htext ▸ Replays.pure)

/-- Several shapes that a run can spell are rendered again. -/
theorem Retraces.replays_renderShapes (hr : r.Retraces p all) (hs : p.Coherent s)
    (hwithin : s.Within all) : (shapes : List Shape) → ∀ {texts},
      Shape.spellItems (s.wording r.scope) shapes = some texts →
        p.Replays all (r.renderShapes shapes) texts
  | [], texts, h => by
    rw [renderShapes]
    exact Option.some.inj h ▸ Replays.pure
  | shape :: rest, texts, h => by
    obtain ⟨first, hfirst, h'⟩ := Option.bind_eq_some_iff.mp h
    obtain ⟨others, hothers, htexts⟩ := Option.bind_eq_some_iff.mp h'
    rw [renderShapes]
    exact (hr.replays_renderShape hs hwithin shape hfirst).bind
      ((hr.replays_renderShapes hs hwithin rest hothers).bind
        (Option.some.inj htexts ▸ Replays.pure))

end

/-- A reference by id is made again. -/
theorem Retraces.stable_referenceTo (hr : r.Retraces p all) (id : Int) :
    p.Stable all (r.referenceTo id) := by
  intro s text s' hs hrun
  obtain ⟨hs', hgrows, htext⟩ := hr.emits_referenceTo id s text s' hs hrun
  exact ⟨hs', hgrows, fun _ hwithin => hr.replays_referenceTo hs' hwithin (htext _ (.refl _))⟩

/-- **A shape is rendered again.** -/
theorem Retraces.stable_renderShape (hr : r.Retraces p all) (shape : Shape) :
    p.Stable all (r.renderShape shape) := by
  intro s text s' hs hrun
  obtain ⟨hs', hgrows, htext⟩ := hr.emits_renderShape shape s text s' hs hrun
  exact ⟨hs', hgrows, fun _ hwithin => hr.replays_renderShape hs' hwithin shape (htext _ (.refl _))⟩

/-- A type reference is rendered again. -/
theorem Retraces.stable_render (hr : r.Retraces p all) (ref : TypeRef) :
    p.Stable all (r.render ref) :=
  (Stable.ofExcept _).bind fun shape => (hr.stable_renderShape shape).bind fun _ => Stable.pure _

/-- An arm of a result is rendered again. -/
theorem Retraces.stable_renderOptional (hr : r.Retraces p all) (ref : Option TypeRef) :
    p.Stable all (r.renderOptional ref) := by
  cases ref with
  | none => exact Stable.pure _
  | some ref => exact hr.stable_render ref

/-- A tuple is rendered again. -/
theorem Retraces.stable_renderTuple (hr : r.Retraces p all) (items : List TypeRef) :
    p.Stable all (r.renderTuple items) :=
  (Stable.mapM items fun ref _ => hr.stable_render ref).bind fun _ => Stable.pure _

/-- The results of a function are rendered again. -/
theorem Retraces.stable_renderResults (hr : r.Retraces p all) (results : List TypeRef) :
    p.Stable all (r.renderResults results) := by
  match results with
  | [] => exact hr.stable_renderTuple []
  | [result] => exact hr.stable_render result
  | first :: second :: rest => exact hr.stable_renderTuple (first :: second :: rest)

/-- A named composite is written out again. -/
theorem Retraces.stable_expand (hr : r.Retraces p all) (t : TypeDef) :
    p.Stable all (r.expand t) := by
  unfold expand
  cases t.kind with
  | list element => exact (hr.stable_render element).bind fun _ => Stable.pure _
  | option element => exact (hr.stable_render element).bind fun _ => Stable.pure _
  | aliasOf target => exact (hr.stable_render target).bind fun _ => Stable.pure _
  | result ok err =>
    exact (hr.stable_renderOptional ok).bind fun _ => (hr.stable_renderOptional err).bind fun _ =>
      Stable.pure _
  | tuple items => exact hr.stable_renderTuple items
  | handle resource _ => exact (hr.stable_referenceTo resource).bind fun _ => Stable.pure _
  | _ => exact Stable.throw _

/-! ## Declarations -/

/-- A member is emitted again. -/
theorem Retraces.stable_member (hr : r.Retraces p all) (scope raw : String) (type : TypeRef) :
    p.Stable all (r.member scope raw type) :=
  Stable.declare.bind fun _ => (hr.stable_render type).bind fun _ => Stable.pure _

/-- Parameters are emitted again. -/
theorem Retraces.stable_params (hr : r.Retraces p all) (scope : String) (ps : List Param) :
    p.Stable all (r.params scope ps) :=
  Stable.mapM ps fun param _ => hr.stable_member scope param.name param.type

/-- A signature is emitted again. -/
theorem Retraces.stable_signature (hr : r.Retraces p all) (scope : String) (f : Function)
    (ps : List Param) : p.Stable all (r.signature scope f ps) :=
  Stable.declare.bind fun _ => (hr.stable_params _ ps).bind fun _ =>
    (hr.stable_renderResults f.results).bind fun _ => Stable.pure _

/-- A record is emitted again. -/
theorem Retraces.stable_record (hr : r.Retraces p all) (scope : String) (fields : List Field) :
    p.Stable all (r.emitRecord scope fields) :=
  Stable.map _ (Stable.mapM fields fun f _ => hr.stable_member scope f.name f.type)

/-- A variant is emitted again. -/
theorem Retraces.stable_variant (hr : r.Retraces p all) (scope : String) (cases : List Case) :
    p.Stable all (r.emitVariant scope cases) := by
  refine Stable.map _ (Stable.mapM cases fun c _ => Stable.declare.bind fun name => ?_)
  cases c.payload with
  | none => exact Stable.pure _
  | some payload => exact (hr.stable_render payload).bind fun _ => Stable.pure _

/-- An enumeration is emitted again. -/
theorem stable_enumeration (scope : String) (labels : List Label) :
    p.Stable all (emitEnumeration scope labels) :=
  Stable.map _ (Stable.mapM labels fun _ _ => Stable.declare.bind fun _ => Stable.pure _)

/-- Flags are emitted again. -/
theorem stable_flags (scope : String) (storage : Storage) (names : List String) :
    p.Stable all (emitFlags scope storage names) :=
  (Stable.claim _ _ _).bind fun _ => (Stable.claim _ _ _).bind fun _ =>
    Stable.map _ (Stable.mapM names fun _ _ => Stable.declare)

/-- The methods of a resource are emitted again. -/
theorem Retraces.stable_methods (hr : r.Retraces p all) (scope : String)
    (functions : List Function) : p.Stable all (r.emitMethods scope functions) := by
  refine Stable.filterMapM functions fun f _ => ?_
  cases f.attachment with
  | method _ => exact Stable.map _ (hr.stable_signature scope f _)
  | freestanding | static _ | constructor _ => exact Stable.pure _

/-- The companion of a resource is emitted again. -/
theorem Retraces.stable_companion (hr : r.Retraces p all) (scope : String)
    (functions : List Function) : p.Stable all (r.emitCompanion scope functions) := by
  refine Stable.filterMapM functions.zipIdx fun entry _ => ?_
  obtain ⟨f, position⟩ := entry
  cases hattachment : f.attachment with
  | constructor _ =>
    simp only [hattachment]
    exact (Stable.claim _ _ _).bind fun _ => (hr.stable_params _ f.params).bind fun _ =>
      Stable.pure _
  | static _ =>
    simp only [hattachment]
    exact (hr.stable_signature scope f f.params).bind fun _ => Stable.pure _
  | freestanding | method _ =>
    simp only [hattachment]
    exact Stable.pure _

/-- A resource is emitted again. -/
theorem Retraces.stable_resource (hr : r.Retraces p all) (site : Site) (t : TypeDef) :
    p.Stable all (r.emitResource site t) := by
  unfold emitResource
  by_cases hdirection : site.direction = .exported
  · rw [if_pos hdirection]
    exact Stable.throw_bind
  · rw [if_neg hdirection]
    cases t.name with
    | none => exact Stable.throw _
    | some raw =>
      exact Stable.declare.bind fun _ => (Stable.claim _ _ _).bind fun _ =>
        (Stable.ofExcept _).bind fun functions => (Stable.ofExcept _).bind fun _ =>
          (hr.stable_methods _ functions).bind fun _ =>
            (hr.stable_companion _ functions).bind fun _ => Stable.pure _

/-- A type is declared again. -/
theorem stable_declared {scope raw : String} {id : Int} {docs : Option String}
    {body : String → Emission TypeBody} (hbody : ∀ name, p.Stable all (body name)) :
    p.Stable all (do
      let name ← Emission.ofNaming (declare .type raw scope)
      return ({ id, name, docs, body := ← body name } : TypeDeclaration)) :=
  Stable.declare.bind fun name => (hbody name).bind fun _ => Stable.pure _

/-- **Whatever is emitted for a type is emitted again.** -/
theorem Retraces.stable_type (hr : r.Retraces p all) (site : Site) (t : TypeDef) :
    p.Stable all (r.emitType site t) := by
  unfold emitType
  cases t.name with
  | none => exact Stable.throw _
  | some raw =>
    cases t.kind with
    | record fields => exact stable_declared fun _ => hr.stable_record _ fields
    | variant cases => exact stable_declared fun _ => hr.stable_variant _ cases
    | enumeration labels => exact stable_declared fun _ => stable_enumeration _ labels
    | flags names =>
      exact (Stable.ofExcept _).bind fun _ => stable_declared fun _ => stable_flags _ _ names
    | resource => exact hr.stable_resource site t
    | aliasOf _ | list _ | option _ | result _ _ | tuple _ | handle _ _ =>
      exact stable_declared fun _ => Stable.map _ (hr.stable_expand t)
    | future _ | stream _ => exact Stable.throw _

/-- **Whatever is emitted for a function is emitted again.** -/
theorem Retraces.stable_function (hr : r.Retraces p all) (site : Site) (f : Function) :
    p.Stable all (r.emitFunction site f) :=
  (hr.stable_signature _ f f.params).bind fun _ => (Stable.ofExcept _).bind fun _ => Stable.pure _

end Renderer

/-! ## Owners -/

namespace Assignment

open Placement

variable {a : Assignment} {orderly : a.graph.Orderly} {p : Placement} {all : Session} {j : Int}
  {direction : Direction} {location : Location}

/-- **The placement of a run that came to an end**: what is asked for has its
claims on record, and a module in that end if not before. -/
def retraced (a : Assignment) (orderly : a.graph.Orderly) (all : Session) : Placement where
  graph := a.graph
  orderly := orderly
  place := a.place
  noted := a.Asked fun j => .interface j .imported ∈ all.opened
  noted_mono hgrows h := h.advance (.of_grows hgrows)
  waits j := a.Unlisted j ∧ ∃ i, a.graph.interface j = .ok i

/-- The location of an interface is found again. -/
theorem stable_interfaceLocation (j : Int) (direction : Direction) :
    p.Stable all (a.interfaceLocation j direction) := by
  unfold interfaceLocation
  refine (Stable.ofExcept _).bind fun i => ?_
  dsimp only
  split
  · exact Stable.throw_bind
  · refine (Stable.ofExcept _).bind fun package => ?_
    split
    · exact a.layout.stable_interfaceLocation package _ direction
    · exact (a.layout.stable_packageSegments package direction).bind fun _ => Stable.throw _

/-- The location of the selected world is found again. -/
theorem stable_worldLocation (direction : Direction) : p.Stable all (a.worldLocation direction) :=
  a.layout.stable_worldLocation a.world.name direction

/-- What is found with all claims on record is found again. -/
theorem replays_of_claims {x : Emission Location} (hx : p.Stable all x)
    (hrun : x { claims := all.claims } = .ok location { claims := all.claims }) :
    p.Replays all x location := by
  have hs : p.Coherent { claims := all.claims } :=
    Coherent.start.of_tables (.ofClaims List.nil_prefix) rfl rfl fun _ => .inl
  exact (hx _ _ _ hs hrun).2.2 () ⟨fun hheld => hheld, List.nil_subset _,
    fun _ h => absurd h List.not_mem_nil⟩

/-- An interface whose claims were granted is located again. -/
theorem replays_interfaceLocation (hplace : a.interfacePlace j direction = .ok location)
    (hgranted : a.Granted all.claims j location) :
    p.Replays all (a.interfaceLocation j direction) location :=
  replays_of_claims (stable_interfaceLocation j direction)
    (interfaceLocation_of_granted hplace hgranted)

/-- An interface that has its module in the end is noted again. -/
theorem replays_note (hwaits : p.waits j) (hopen : .interface j .imported ∈ all.opened) :
    p.Replays all (note j) () := by
  intro t ht hwithin
  refine ⟨_, modify_eq_ok.mpr rfl, ?_⟩
  split
  · exact ⟨ht, .refl t, hwithin⟩
  · have hgrows : t.Grows { t with pending := t.pending ++ [j] } :=
      { Session.Grows.refl t with pending := List.prefix_append _ _ }
    have hpending : ∀ k ∈ t.pending ++ [j], k ∈ t.pending ∨ k = j := fun k hk => by simpa using hk
    refine ⟨ht.of_tables hgrows rfl rfl fun k hk => (hpending k hk).imp id ?_, hgrows,
      hwithin.claims, hwithin.opened, fun k hk => ?_⟩
    · rintro rfl
      exact hwaits
    · rcases hpending k hk with hk | rfl
      · exact hwithin.pending k hk
      · exact hopen

/-- **An owner that was asked for is located again.** -/
theorem replays_locate {owner : TypeOwner} {s : Session}
    (hasked : (a.retraced orderly all).noted owner s) (hwithin : s.Within all)
    (hplace : a.place owner = .ok location) :
    (a.retraced orderly all).Replays all (a.locate owner) location := by
  have hheld : a.Held all.claims owner := hasked.held.within hwithin.claims
  cases owner with
  | world id =>
    obtain ⟨world, direction, location', hworld, hdirection, hplace', hgranted⟩ := hheld
    simp only [place, hworld, hdirection, except_bind_eq_ok, Except.ok.injEq,
      exists_eq_left'] at hplace
    obtain rfl := Except.ok.inj (hplace.symm.trans hplace')
    unfold locate
    refine Replays.bind (.ofExcept hworld) (Replays.bind (.ofExcept hdirection)
      (replays_of_claims (a.layout.stable_worldLocation _ _) ?_))
    exact Emission.ofNaming_eq_ok.mpr
      ⟨all.claims, Layout.worldLocation_of_granted hplace hgranted, rfl⟩
  | interface j =>
    obtain ⟨location', hplace', hgranted⟩ := hheld
    obtain rfl := Except.ok.inj (Eq.trans hplace.symm hplace')
    have hlocation : (a.retraced orderly all).Replays all
        (a.interfaceLocation j (a.directionOf j)) location :=
      replays_interfaceLocation hplace hgranted
    by_cases hunlisted : a.Unlisted j
    · -- The interface was noted, and its module is open in the end.
      have hopen : .interface j .imported ∈ all.opened := by
        rcases hasked.noted with hlisted | hopen | hnoted | hgrant
        · exact absurd hunlisted hlisted
        · exact hwithin.opened hopen
        · exact hwithin.pending j hnoted
        · exact hgrant
      obtain ⟨_, _, hcalled, -⟩ := hgranted
      have hnote : (a.retraced orderly all).Replays all (note j) () :=
        replays_note ⟨hunlisted, interface_of_calledAs hcalled⟩ hopen
      intro t ht hwithin'
      obtain ⟨t₁, hrun₁, ht₁, hgrows₁, hwithin₁⟩ := hnote t ht hwithin'
      obtain ⟨t₂, hrun₂, ht₂, hgrows₂, hwithin₂⟩ := hlocation t₁ ht₁ hwithin₁
      exact ⟨t₂, locate_interface_eq_ok.mpr ⟨t₁, .inr ⟨hunlisted, hrun₁⟩, hrun₂⟩, ht₂,
        hgrows₁.trans hgrows₂, hwithin₂⟩
    · intro t ht hwithin'
      obtain ⟨t₁, hrun₁, hrest⟩ := hlocation t ht hwithin'
      exact ⟨t₁, locate_interface_eq_ok.mpr ⟨t, .inl ⟨hunlisted, rfl⟩, hrun₁⟩, hrest⟩

/-- **All renderers of a run find owners again.** -/
theorem renderer_retraces (orderly : a.graph.Orderly) (all : Session) (location : Location) :
    (a.renderer location).Retraces (a.retraced orderly all) all where
  graph := rfl
  place h := (locate_eq_ok (fun _ => False) h).1
  grows h := (renderer_follows orderly (fun _ => False) location).grows h
  references h := (renderer_follows orderly (fun _ => False) location).references h
  instantiations h := (renderer_follows orderly (fun _ => False) location).instantiations h
  noted h := ⟨(locate_eq_ok _ h).2.noted, (locate_eq_ok (fun _ => False) h).2.held⟩
  pending h := (locate_eq_ok (fun _ => False) h).2.waits
  replays hasked hwithin hplace := replays_locate hasked hwithin hplace

/-- An owner is located again. -/
theorem stable_locate (owner : TypeOwner) :
    (a.retraced orderly all).Stable all (a.locate owner) := by
  intro s location s' hs hrun
  have hr := renderer_retraces orderly all location
  have hgrows := hr.grows hrun
  refine ⟨hs.of_tables hgrows (hr.references hrun) (hr.instantiations hrun) (hr.pending hrun),
    hgrows, fun _ hwithin => ?_⟩
  exact hr.replays (hr.noted hrun) hwithin (hr.place hrun)

/-- Whether a type is declared in the module of the world is found out again. -/
theorem stable_declaresInWorld (t : TypeDef) (direction : Direction) :
    (a.retraced orderly all).Stable all (a.declaresInWorld t direction) := by
  unfold declaresInWorld
  cases t.owner with
  | none => exact Stable.pure _
  | some owner =>
    refine (stable_locate owner).bind fun location => ?_
    split
    · exact (stable_worldLocation direction).bind fun _ => Stable.pure _
    · exact Stable.pure _

end Assignment

end ComponentBindings
