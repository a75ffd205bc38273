import ComponentBindings.Proofs.Referred
import ComponentBindings.Proofs.Shapes

/-!
# Inline composites are built from their parts

`Renderer.renderShape` writes a shape and asks for no type on the way, because all that the text
depends on is in the shape. A type without a name can as well be written type by type: look for what
is remembered of its shape, and where there is nothing, write out the type one level deep, with each
part as a reference of its own, and remember that. It makes no difference, neither for the text nor
for what is remembered (`Renderer.render_unnamed`).
-/

namespace ComponentBindings

namespace Graph

variable {g : Graph} {enterable enterable' : List Int} {ref : TypeRef} {t : TypeDef} {shape : Shape}

/-- An arm keeps its shape where references do. -/
theorem armWithin_of_forall {arm : Option TypeRef}
    (hkeeps : ∀ {ref shape}, g.shapeWithin enterable ref = .ok shape →
      g.shapeWithin enterable' ref = .ok shape)
    (h : g.armWithin enterable arm = .ok shape) : g.armWithin enterable' arm = .ok shape := by
  cases arm with
  | none =>
    rw [armWithin] at h ⊢
    exact h
  | some ref =>
    rw [armWithin_some] at h ⊢
    exact hkeeps h

/-- **A shape stays as it is** where more may be entered. -/
theorem shapeWithin_mono (hsub : enterable.Sublist enterable')
    (h : g.shapeWithin enterable ref = .ok shape) : g.shapeWithin enterable' ref = .ok shape := by
  induction enterable, ref using shapeWithin_induction g generalizing enterable' shape with
  | primitive enterable p =>
    rw [shapeWithin] at h ⊢
    exact h
  | missing ht =>
    rw [shapeWithin_missing ht] at h
    cases h
  | named ht hname =>
    rw [shapeWithin_named ht hname] at h ⊢
    exact h
  | again ht hname hout =>
    rw [shapeWithin_again ht hname hout] at h
    cases h
  | refused ht hname henter harms =>
    rw [shapeWithin_refused ht hname henter harms] at h
    cases h
  | entered ht hname henter harms ih =>
    rw [shapeWithin_entered ht hname henter harms] at h
    rw [shapeWithin_entered ht hname (hsub.subset henter) harms]
    obtain ⟨shapes, hshapes, rfl⟩ := except_map_eq_ok.mp h
    refine except_map_eq_ok.mpr ⟨shapes, mapM_eq_ok_of_forall₂ ?_, rfl⟩
    exact (forall₂_of_mapM_eq_ok hshapes).imp fun _ _ =>
      armWithin_of_forall fun {part _} => ih part (hsub.erase _)

/-- So does the shape of what a composite stands for. -/
theorem expansionWithin_mono (hsub : enterable.Sublist enterable')
    (h : g.expansionWithin enterable t = .ok shape) :
    g.expansionWithin enterable' t = .ok shape := by
  have harm : ∀ {arm inner}, g.armWithin enterable arm = .ok inner →
      g.armWithin enterable' arm = .ok inner := armWithin_of_forall (shapeWithin_mono hsub)
  unfold expansionWithin at h ⊢
  cases hkind : t.kind with
  | list element | option element | aliasOf target =>
    simp only [hkind, except_map_eq_ok] at h ⊢
    obtain ⟨part, hpart, rfl⟩ := h
    exact ⟨part, shapeWithin_mono hsub hpart, rfl⟩
  | result ok err =>
    simp only [hkind, except_bind_eq_ok] at h ⊢
    obtain ⟨okShape, hok, errShape, herr, heq⟩ := h
    exact ⟨okShape, harm hok, errShape, harm herr, heq⟩
  | tuple items =>
    simp only [hkind, except_map_eq_ok, shapesWithin_eq_mapM] at h ⊢
    obtain ⟨shapes, hshapes, rfl⟩ := h
    refine ⟨shapes, mapM_eq_ok_of_forall₂ ?_, rfl⟩
    exact (forall₂_of_mapM_eq_ok hshapes).imp fun _ _ => shapeWithin_mono hsub
  | handle resource borrowed =>
    rw [hkind] at h
    exact h
  | record _ | variant _ | enumeration _ | flags _ | resource | future _ | stream _ =>
    rw [hkind] at h
    cases h

end Graph

namespace Renderer

variable {r : Renderer} {ref : TypeRef} {t : TypeDef} {id : Int} {shape : Shape}

/-- A reference with a shape is written as its shape is. -/
theorem render_of_shapeOf (h : r.graph.shapeOf ref = .ok shape) :
    r.render ref = TypeExpr.mk shape <$> r.renderShape shape := by
  rw [render, h]
  rfl

/-- So is an arm of a result. -/
theorem renderOptional_of_shapeOf {arm : Option TypeRef}
    (h : r.graph.shapeOfOptional arm = .ok shape) :
    r.renderOptional arm = TypeExpr.mk shape <$> r.renderShape shape := by
  cases arm with
  | none =>
    rw [Graph.shapeOfOptional, Graph.armWithin] at h
    obtain rfl := Except.ok.inj h
    rw [renderOptional, renderShape]
    rfl
  | some ref =>
    rw [Graph.shapeOfOptional_some] at h
    exact render_of_shapeOf h

/-- And so are the items of a tuple. -/
theorem mapM_render_of_shapes {items : List TypeRef} {shapes : List Shape}
    (h : List.Forall₂ (fun ref shape => r.graph.shapeOf ref = .ok shape) items shapes) :
    List.map TypeExpr.text <$> items.mapM r.render = r.renderShapes shapes := by
  induction h with
  | nil =>
    rw [renderShapes]
    rfl
  | @cons ref shape items shapes hshape _ ih =>
    rw [List.mapM_cons, render_of_shapeOf hshape, renderShapes, ← ih]
    simp only [map_bind, bind_map_left, List.map_cons, bind_pure_comp, Functor.map_map]

/-- **A composite is written as its expansion**, unless its text is remembered. -/
theorem renderShape_of_expansion (h : r.graph.expansion t = .ok shape) :
    r.renderShape shape = r.remembered shape (TypeExpr.text <$> r.expand t) := by
  unfold Graph.expansion at h
  unfold expand
  cases hkind : t.kind with
  | list element | option element | aliasOf element =>
    simp only [hkind, except_map_eq_ok] at h ⊢
    obtain ⟨part, hpart, rfl⟩ := h
    rw [renderShape, render_of_shapeOf hpart]
    simp only [bind_pure_comp, Functor.map_map, id_map']
  | result ok err =>
    simp only [hkind, except_bind_eq_ok, except_pure_eq_ok] at h ⊢
    obtain ⟨okShape, hok, errShape, herr, rfl⟩ := h
    rw [renderShape, renderOptional_of_shapeOf hok, renderOptional_of_shapeOf herr]
    simp only [bind_map_left, map_bind, bind_pure_comp, Functor.map_map]
  | tuple items =>
    simp only [hkind, Graph.shapeOfTuple, except_map_eq_ok, Graph.shapesWithin_eq_mapM] at h ⊢
    obtain ⟨shapes, hshapes, rfl⟩ := h
    rw [renderShape, renderTuple, ← mapM_render_of_shapes (forall₂_of_mapM_eq_ok hshapes)]
    simp only [bind_pure_comp, Functor.map_map]
  | handle resource borrowed =>
    rw [hkind] at h
    obtain rfl := Except.ok.inj h
    rw [renderShape]
    simp only [bind_pure_comp, Functor.map_map, id_map']
  | record _ | variant _ | enumeration _ | flags _ | resource | future _ | stream _ =>
    rw [hkind] at h
    cases h

/-- **A type without a name is written type by type**: what is remembered of its shape, or else its
expansion, in which each part is a reference of its own. -/
theorem render_unnamed (ht : r.graph.typeDef id = .ok t) (hname : t.name = none) :
    r.render (.defined id) = (do
      let shape ← Emission.ofExcept (r.graph.shapeOf (.defined id))
      let text ← r.remembered shape (TypeExpr.text <$> r.expand t)
      return ⟨shape, text⟩) := by
  rw [render]
  cases hshape : r.graph.shapeOf (.defined id) with
  | error fault => rfl
  | ok shape =>
    have hexpansion : r.graph.expansion t = .ok shape := by
      rw [Graph.expansion_eq]
      exact Graph.expansionWithin_mono List.erase_sublist
        (Graph.expansionWithin_of_shapeWithin ht hname hshape)
    have hfound : Emission.ofExcept (.ok shape) = pure shape := rfl
    rw [hfound, pure_bind, pure_bind, renderShape_of_expansion hexpansion]

end Renderer

end ComponentBindings
