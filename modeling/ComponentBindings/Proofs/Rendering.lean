import ComponentBindings.Proofs.Remembered

/-!
# Rendering follows the placement

Every way to render a type comes to the spelling of a shape. The renderer
takes the parts of a shape in turn and stops at whatever it remembers, so the
proofs go by the same recursion: a reference is the prescribed one
(`Renderer.Follows.emits_reference`), a composite is built from parts that
are right or was right already (`Renderer.emits_remembered`), and a shape is
rendered as it is spelled (`Renderer.Follows.emits_renderShape`). What
callers see is one notion, `TypeExpr.Writes`: the expression has the shape of
the type, and its text is the spelling of that shape.
-/

namespace ComponentBindings

/-- **What it is to write a shape**: the expression stands for the shape, and
its text is the spelling of the shape. The shape of a type may be missing, and
then nothing writes it. -/
def TypeExpr.Writes (w : Wording) (shape : Except Fault Shape) (e : TypeExpr) : Prop :=
  shape = .ok e.shape ∧ e.shape.spell w = some e.text

/-- Whether the types of a kind are written out where they are declared. -/
def TypeKind.isComposite : TypeKind → Bool
  | .aliasOf _ | .list _ | .option _ | .result _ _ | .tuple _ | .handle _ _ => true
  | _ => false

namespace Graph

/-- The shape of several type references as a tuple. -/
def shapeOfTuple (g : Graph) (refs : List TypeRef) : Except Fault Shape :=
  .tuple <$> g.shapesWithin g.typeIds refs

/-- The shape of the results of a function. -/
def shapeOfResults (g : Graph) : List TypeRef → Except Fault Shape
  | [result] => g.shapeOf result
  | results => g.shapeOfTuple results

/-- The shape of what a named composite stands for. -/
def expansion (g : Graph) (t : TypeDef) : Except Fault Shape :=
  match t.kind with
  | .list element => .list <$> g.shapeOf element
  | .option element => .option <$> g.shapeOf element
  | .result ok err => do
    let ok ← g.shapeOfOptional ok
    let err ← g.shapeOfOptional err
    return .result ok err
  | .tuple items => g.shapeOfTuple items
  | .handle resource _ => .ok (.handle resource)
  | .aliasOf target => .aliasOf <$> g.shapeOf target
  | _ => .error (.notComposite t.id)

/-- A reference that is not absent has the shape of the reference. -/
theorem shapeOfOptional_some (g : Graph) (ref : TypeRef) :
    g.shapeOfOptional (some ref) = g.shapeOf ref := by
  rw [shapeOfOptional, armWithin, shapeOf]

/-- A type with a name is referred to by it, below whichever composites. -/
theorem shapeWithin_named {g : Graph} {enterable : List Int} {id : Int} {t : TypeDef}
    (ht : g.typeDef id = .ok t) (hname : t.name.isSome = true) :
    g.shapeWithin enterable (.defined id) = .ok (.named id) := by
  rw [shapeWithin, ht]
  show (if t.name.isSome = true then _ else _) = _
  rw [if_pos hname]
  rfl

/-- A type with a name is referred to by it. -/
theorem shapeOf_named {g : Graph} {id : Int} {t : TypeDef} (ht : g.typeDef id = .ok t)
    (hname : t.name.isSome = true) : g.shapeOf (.defined id) = .ok (.named id) :=
  shapeWithin_named ht hname

/-- The shapes of several references are found one by one. -/
theorem shapesWithin_eq_mapM (g : Graph) (enterable : List Int) (refs : List TypeRef) :
    g.shapesWithin enterable refs = refs.mapM (g.shapeWithin enterable) := by
  induction refs with
  | nil => rw [shapesWithin]; rfl
  | cons ref refs ih => simp only [shapesWithin, List.mapM_cons, ih]

end Graph

/-- **Expressions that are written one by one make up a tuple.** -/
theorem TypeExpr.writes_tuple {g : Graph} {w : Wording} {refs : List TypeRef} {es : List TypeExpr}
    (h : List.Forall₂ (fun ref e => TypeExpr.Writes w (g.shapeOf ref) e) refs es) :
    TypeExpr.Writes w (g.shapeOfTuple refs)
      ⟨.tuple (es.map TypeExpr.shape), tupleSpelling (es.map TypeExpr.text)⟩ := by
  have hshapes : g.shapesWithin g.typeIds refs = .ok (es.map TypeExpr.shape) := by
    rw [Graph.shapesWithin_eq_mapM]
    refine mapM_eq_ok_of_forall₂ ?_
    rw [List.forall₂_map_right_iff]
    exact h.imp fun _ _ he => he.1
  have htexts : Shape.spellItems w (es.map TypeExpr.shape) = some (es.map TypeExpr.text) := by
    clear hshapes
    induction h with
    | nil => rfl
    | @cons ref e refs es he _ ih =>
      rw [List.map_cons, List.map_cons, Shape.spellItems, he.2, ih]
      rfl
  refine ⟨?_, ?_⟩
  · rw [Graph.shapeOfTuple, hshapes]
    rfl
  · rw [Shape.spell, htexts]
    rfl

namespace Renderer

open Placement

variable {r : Renderer} {p : Placement} {s : Session} {text : String}

/-- A reference that is on record is repeated. -/
theorem reference_of_known {t : TypeDef}
    (h : s.references.lookup (t.id, r.scope) = some text) : r.reference t s = .ok text s := by
  refine bind_eq_ok.mpr ⟨s, s, rfl, ?_⟩
  rw [h]
  rfl

/-- A reference that is not on record is made anew and put there. -/
theorem reference_of_new {t : TypeDef} (h : s.references.lookup (t.id, r.scope) = none) :
    r.reference t s = (do
      let text ← r.newReference t
      modify fun s => { s with references := s.references ++ [((t.id, r.scope), text)] }
      return text : Emission String) s := by
  unfold reference
  show EStateM.bind get _ s = _
  rw [EStateM.bind, show (get : Emission Session) s = .ok s s from rfl]
  dsimp only
  rw [h]

/-- A composite that is on file is repeated. -/
theorem remembered_of_known {shape : Shape} {build : Emission String}
    (h : s.instantiations.lookup (tableKey r.scope shape) = some text) :
    r.remembered shape build s = .ok text s := by
  refine bind_eq_ok.mpr ⟨s, s, rfl, ?_⟩
  unfold tableKey at h
  rw [h]
  rfl

/-- A composite that is not on file is built and put there. -/
theorem remembered_of_new {shape : Shape} {build : Emission String}
    (h : s.instantiations.lookup (tableKey r.scope shape) = none) :
    r.remembered shape build s = (do
      let text ← build
      modify fun s =>
        { s with instantiations := s.instantiations ++ [(tableKey r.scope shape, text)] }
      return text : Emission String) s := by
  unfold remembered
  show EStateM.bind get _ s = _
  rw [EStateM.bind, show (get : Emission Session) s = .ok s s from rfl]
  dsimp only
  unfold tableKey at h
  rw [h]
  rfl

/-- **A reference that is made anew** is the one that the placement
prescribes, and the owner has been asked for. -/
theorem Follows.newReference (hr : r.Follows p) {t : TypeDef} (ht : p.graph.typeDef t.id = .ok t)
    {s s' : Session} {text : String} (hs : p.Coherent s)
    (hrun : r.newReference t s = .ok text s') :
    p.Coherent s' ∧ s.Grows s' ∧ s'.references = s.references ∧
      p.referenceText r.scope t.id = .ok text ∧ ∀ o, t.owner = some o → p.noted o s' := by
  obtain ⟨name, _, hderive, hrun⟩ := bind_eq_ok.mp hrun
  obtain ⟨hname, rfl⟩ := Emission.ofExcept_eq_ok.mp hderive
  unfold referenceText
  simp only [ht, hname, except_bind_eq_ok, Except.ok.injEq, exists_eq_left']
  cases howner : t.owner with
  | none =>
    simp only [howner, pure_eq_ok] at hrun
    obtain ⟨rfl, rfl⟩ := hrun
    exact ⟨hs, .refl s, rfl, rfl, fun o ho => by cases ho⟩
  | some owner =>
    simp only [howner, bind_eq_ok, pure_eq_ok] at hrun
    obtain ⟨location, _, hlocate, rfl, rfl⟩ := hrun
    have hgrows := hr.grows hlocate
    refine ⟨hs.of_tables hgrows (hr.references hlocate) (hr.instantiations hlocate)
      (hr.pending hlocate), hgrows, hr.references hlocate, ?_, ?_⟩
    · simp only [hr.place hlocate, except_bind_eq_ok, Except.ok.injEq, exists_eq_left',
        except_pure_eq_ok]
    · rintro o ⟨⟩
      exact hr.noted hlocate

/-- **A reference is the one that the placement prescribes**, made anew or
remembered. -/
theorem Follows.emits_reference (hr : r.Follows p) {t : TypeDef}
    (ht : p.graph.typeDef t.id = .ok t) :
    p.Emits r.scope (r.reference t) fun w text => w t.id = some text := by
  intro s text s' hs hrun
  cases hknown : s.references.lookup (t.id, r.scope) with
  | some known =>
    rw [reference_of_known hknown] at hrun
    obtain ⟨rfl, rfl⟩ := EStateM.Result.ok.inj hrun
    exact ⟨hs, .refl s, fun w hw => hw t.id known hknown⟩
  | none =>
    rw [reference_of_new hknown] at hrun
    simp only [bind_eq_ok, modify_eq_ok, pure_eq_ok] at hrun
    obtain ⟨text', s₁, hnew, _, _, rfl, rfl, rfl⟩ := hrun
    obtain ⟨hs₁, hgrows, href, htext, hnoted⟩ := hr.newReference ht hs hnew
    have hgrows' := hgrows.trans (.ofReference ((t.id, r.scope), text'))
    refine ⟨hs₁.remember_reference ht htext hnoted, hgrows', fun w hw => hw t.id text' ?_⟩
    unfold Session.wording
    rw [List.lookup_append, href, hknown, List.lookup_cons_self]
    rfl

/-- A reference by id. -/
theorem Follows.emits_referenceTo (hr : r.Follows p) (id : Int) :
    p.Emits r.scope (r.referenceTo id) fun w text => w id = some text := by
  intro s text s' hs hrun
  obtain ⟨t, _, hfind, href⟩ := bind_eq_ok.mp hrun
  obtain ⟨ht, rfl⟩ := Emission.ofExcept_eq_ok.mp hfind
  rw [hr.graph] at ht
  obtain rfl : t.id = id := p.orderly.typeDef_id ht
  exact hr.emits_reference ht s text s' hs href

/-- **A composite that is kept by its shape is spelled right** if it is built
right. -/
theorem emits_remembered {shape : Shape} {build : Emission String}
    (hbuild : p.Emits r.scope build fun w text => shape.spell w = some text) :
    p.Emits r.scope (r.remembered shape build) fun w text => shape.spell w = some text := by
  intro s text s' hs hrun
  cases hknown : s.instantiations.lookup (tableKey r.scope shape) with
  | some known =>
    rw [remembered_of_known hknown] at hrun
    obtain ⟨rfl, rfl⟩ := EStateM.Result.ok.inj hrun
    exact ⟨hs, .refl s, fun w hw => Shape.spell_mono hw (hs.instantiations hknown)⟩
  | none =>
    rw [remembered_of_new hknown] at hrun
    simp only [bind_eq_ok, modify_eq_ok, pure_eq_ok] at hrun
    obtain ⟨text', s₁, hrunb, _, _, rfl, rfl, rfl⟩ := hrun
    obtain ⟨hs₁, hgrows, htext⟩ := hbuild s text' s₁ hs hrunb
    exact ⟨hs₁.remember_instantiation (htext _ (.refl _)),
      hgrows.trans (.ofInstantiations _), htext⟩

mutual

/-- **A shape is rendered as it is spelled.** -/
theorem Follows.emits_renderShape (hr : r.Follows p) :
    (shape : Shape) →
      p.Emits r.scope (r.renderShape shape) fun w text => shape.spell w = some text
  | .unit => by
    unfold renderShape
    exact Yields.pure fun _ => rfl
  | .primitive _ => by
    unfold renderShape
    exact Yields.pure fun _ => rfl
  | .named id => by
    unfold renderShape
    exact hr.emits_referenceTo id
  | .handle resource => by
    unfold renderShape
    exact emits_remembered (hr.emits_referenceTo resource)
  | .list element => by
    unfold renderShape
    refine emits_remembered ((hr.emits_renderShape element).bind fun text =>
      Yields.pure fun w htext => ?_)
    rw [Shape.spell, htext]
    rfl
  | .option element => by
    unfold renderShape
    refine emits_remembered ((hr.emits_renderShape element).bind fun text =>
      Yields.pure fun w htext => ?_)
    rw [Shape.spell, htext]
    rfl
  | .aliasOf target => by
    unfold renderShape
    exact emits_remembered ((hr.emits_renderShape target).imp fun w text htext => by
      rw [Shape.spell, htext])
  | .result ok err => by
    unfold renderShape
    refine emits_remembered ((hr.emits_renderShape ok).bind fun okText =>
      (hr.emits_renderShape err).bind fun errText => Yields.pure fun w herr hok => ?_)
    rw [Shape.spell, hok, herr]
    rfl
  | .tuple items => by
    unfold renderShape
    refine emits_remembered ((hr.emits_renderShapes items).bind fun texts =>
      Yields.pure fun w htexts => ?_)
    rw [Shape.spell, htexts]
    rfl

theorem Follows.emits_renderShapes (hr : r.Follows p) :
    (shapes : List Shape) → p.Emits r.scope (r.renderShapes shapes) fun w texts =>
      Shape.spellItems w shapes = some texts
  | [] => by
    unfold renderShapes
    exact Yields.pure fun _ => rfl
  | shape :: rest => by
    unfold renderShapes
    refine (hr.emits_renderShape shape).bind fun text =>
      (hr.emits_renderShapes rest).bind fun texts => Yields.pure fun w htexts htext => ?_
    rw [Shape.spellItems, htext, htexts]
    rfl

end

/-- A type with a name is rendered as a reference to it. -/
theorem render_named {id : Int} {t : TypeDef} (ht : r.graph.typeDef id = .ok t)
    (hname : t.name.isSome = true) : r.render (.defined id) = (do
      let text ← r.referenceTo id
      return ⟨.named id, text⟩) := by
  unfold render
  rw [Graph.shapeOf_named ht hname]
  rfl

/-- **A type reference is written as its shape.** -/
theorem Follows.emits_render (hr : r.Follows p) (ref : TypeRef) :
    p.Emits r.scope (r.render ref) fun w e => e.Writes w (p.graph.shapeOf ref) := by
  unfold render
  refine Yields.ofExcept.bind fun shape => (hr.emits_renderShape shape).bind fun text =>
    Yields.pure fun w htext hshape => ⟨?_, htext⟩
  rw [← hr.graph, hshape]

/-- An arm of a result is written as its shape. -/
theorem Follows.emits_renderOptional (hr : r.Follows p) (ref : Option TypeRef) :
    p.Emits r.scope (r.renderOptional ref) fun w e => e.Writes w (p.graph.shapeOfOptional ref) := by
  cases ref with
  | none =>
    refine Yields.pure fun w => ⟨?_, rfl⟩
    rw [Graph.shapeOfOptional, Graph.armWithin]
  | some ref =>
    rw [Graph.shapeOfOptional_some]
    exact hr.emits_render ref

/-- Several references are written as a tuple. -/
theorem Follows.emits_renderTuple (hr : r.Follows p) (items : List TypeRef) :
    p.Emits r.scope (r.renderTuple items) fun w e => e.Writes w (p.graph.shapeOfTuple items) := by
  unfold renderTuple
  exact (Yields.mapM items fun ref _ => hr.emits_render ref).bind fun es =>
    Yields.pure fun w hes => TypeExpr.writes_tuple hes

/-- The results of a function are written as their shape. -/
theorem Follows.emits_renderResults (hr : r.Follows p) (results : List TypeRef) :
    p.Emits r.scope (r.renderResults results) fun w e =>
      e.Writes w (p.graph.shapeOfResults results) := by
  match results with
  | [] => exact hr.emits_renderTuple []
  | [result] => exact hr.emits_render result
  | first :: second :: rest => exact hr.emits_renderTuple (first :: second :: rest)

/-- **A named composite is written as what it stands for.** -/
theorem Follows.emits_expand (hr : r.Follows p) (t : TypeDef) :
    p.Emits r.scope (r.expand t) fun w e => e.Writes w (p.graph.expansion t) := by
  unfold expand Graph.expansion
  cases t.kind with
  | list element =>
    refine (hr.emits_render element).bind fun e => Yields.pure fun w he => ⟨?_, ?_⟩
    · simp only [he.1]
      rfl
    · rw [Shape.spell, he.2]
      rfl
  | option element =>
    refine (hr.emits_render element).bind fun e => Yields.pure fun w he => ⟨?_, ?_⟩
    · simp only [he.1]
      rfl
    · rw [Shape.spell, he.2]
      rfl
  | result ok err =>
    refine (hr.emits_renderOptional ok).bind fun okExpr =>
      (hr.emits_renderOptional err).bind fun errExpr => Yields.pure fun w herr hok => ⟨?_, ?_⟩
    · simp only [hok.1, herr.1]
      rfl
    · rw [Shape.spell, hok.2, herr.2]
      rfl
  | tuple items => exact hr.emits_renderTuple items
  | handle resource _ =>
    exact (hr.emits_referenceTo resource).bind fun text => Yields.pure fun w htext => ⟨rfl, htext⟩
  | aliasOf target =>
    refine (hr.emits_render target).bind fun e => Yields.pure fun w he => ⟨?_, ?_⟩
    · simp only [he.1]
      rfl
    · rw [Shape.spell, he.2]
  | _ => exact Yields.throw

end Renderer

end ComponentBindings
