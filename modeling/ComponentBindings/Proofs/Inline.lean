import ComponentBindings.Proofs.Shapes
import ComponentBindings.Proofs.Vouched
import Mathlib.Data.List.Nodup
import Mathlib.Logic.Relation

/-!
# Types that are written inline

A type without a name is written out wherever it is used, and what it is made
of is written out inside it. So a reference leads to all types that are met on
the way down (`Graph.LeadsTo`), and the way ends at types with a name and at
handles, which are referred to. Two things can go wrong on it: a type is of a
kind that has to be declared or has no form at all, or it leads back to itself
(`Graph.GoesRound`).

`Graph.Closed.isOk_shapeOf_iff` says that nothing else does, and that these
always do: a reference has a shape exactly when it can be written inline
(`Graph.Inlinable`). A type that is met several times is no circle, and a
fault always has a culprit on the way (`Graph.Culprit`). The shape names the
types at which the way ends (`Graph.Closed.mem_names_iff`).
-/

namespace ComponentBindings

namespace Graph

variable {g : Graph} {enterable : List Int} {id : Int} {t : TypeDef} {ref ref' : TypeRef}
  {shape : Shape} {fault : Fault}

/-! ## The way down -/

/-- A type without a name is made of its parts. -/
def MadeOf (g : Graph) (ref part : TypeRef) : Prop :=
  ∃ id t, ref = .defined id ∧ g.typeDef id = .ok t ∧ t.name = none ∧ part ∈ t.kind.parts

/-- **What a reference leads to** through types without a name. -/
def LeadsTo (g : Graph) : TypeRef → TypeRef → Prop := Relation.ReflTransGen g.MadeOf

/-- **A type that goes round**: it leads back to itself through types without a
name. -/
def GoesRound (g : Graph) (id : Int) : Prop :=
  Relation.TransGen g.MadeOf (.defined id) (.defined id)

/-- A type without a name that is met on the way down from a reference. -/
structure Meets (g : Graph) (ref : TypeRef) (id : Int) (t : TypeDef) : Prop where
  /-- The way leads there. -/
  leads : g.LeadsTo ref (.defined id)
  /-- It is a type. -/
  found : g.typeDef id = .ok t
  /-- The type has no name. -/
  unnamed : t.name = none

/-- **A reference that can be written inline**: the types without a name on the
way down can be written out, and none of them goes round. -/
def Inlinable (g : Graph) (ref : TypeRef) : Prop :=
  ∀ id t, g.Meets ref id t → t.kind.isComposite = true ∧ ¬ g.GoesRound id

/-- **A fault with a culprit** on the way down from a reference. -/
inductive Culprit (g : Graph) (ref : TypeRef) : Fault → Prop
  /-- A type goes round. -/
  | round {id : Int} {t : TypeDef} : g.Meets ref id t → g.GoesRound id →
    Culprit g ref (.selfReference id)
  /-- A type cannot be written out. -/
  | kind {id : Int} {t : TypeDef} : g.Meets ref id t → t.kind.isComposite = false →
    Culprit g ref (t.kind.refusal id)

/-- **A type that a reference refers to**, at the end of some way down. -/
inductive RefersTo (g : Graph) (ref : TypeRef) (id : Int) : Prop
  /-- A type with a name. -/
  | name {t : TypeDef} : g.LeadsTo ref (.defined id) → g.typeDef id = .ok t →
    t.name.isSome = true → RefersTo g ref id
  /-- The resource of a handle without a name. -/
  | handle {handle : Int} {t : TypeDef} {borrowed : Bool} : g.Meets ref handle t →
    t.kind = .handle id borrowed → RefersTo g ref id

/-- What a part meets is met. -/
theorem Meets.head (hmade : g.MadeOf ref ref') (h : g.Meets ref' id t) : g.Meets ref id t :=
  ⟨.head hmade h.leads, h.found, h.unnamed⟩

/-- The culprit in a part is a culprit. -/
theorem Culprit.head (hmade : g.MadeOf ref ref') (h : g.Culprit ref' fault) :
    g.Culprit ref fault := by
  cases h with
  | round hmeets hround => exact .round (hmeets.head hmade) hround
  | kind hmeets hkind => exact .kind (hmeets.head hmade) hkind

/-- What a part refers to is referred to. -/
theorem RefersTo.head (hmade : g.MadeOf ref ref') (h : g.RefersTo ref' id) : g.RefersTo ref id := by
  cases h with
  | name hleads ht hname => exact .name (.head hmade hleads) ht hname
  | handle hmeets hkind => exact .handle (hmeets.head hmade) hkind

/-- **A culprit stands in the way** of a shape. -/
theorem Culprit.not_inlinable (h : g.Culprit ref fault) : ¬ g.Inlinable ref := by
  intro hinlinable
  cases h with
  | round hmeets hround => exact (hinlinable _ _ hmeets).2 hround
  | kind hmeets hkind => simp [(hinlinable _ _ hmeets).1] at hkind

/-! ## What a search comes to -/

/-- The ids of the types are the positions of the types. -/
theorem mem_typeIds_iff : id ∈ g.typeIds ↔ g.Has .types id := by
  simp only [typeIds, List.mem_map, List.mem_range, Has, size]
  constructor
  · rintro ⟨n, hn, rfl⟩
    exact ⟨Int.natCast_nonneg n, Int.ofNat_lt.mpr hn⟩
  · rintro ⟨hpos, hlt⟩
    exact ⟨id.toNat, by omega, Int.toNat_of_nonneg hpos⟩

/-- No id is listed twice. -/
theorem nodup_typeIds : g.typeIds.Nodup := List.nodup_range.map fun _ _ h => Int.ofNat.inj h

/-- **What comes of a search** on which whatever may not be entered leads to
where it stands: a shape that names only what the reference refers to, or a
fault with a culprit. -/
theorem Closed.endsIn_shapeWithin (h : g.Closed) (enterable : List Int) (ref : TypeRef)
    (href : g.HasRef ref)
    (hway : ∀ id, g.Has .types id → id ∉ enterable → Relation.TransGen g.MadeOf (.defined id) ref) :
    EndsIn (g.Culprit ref) (fun shape => ∀ id ∈ shape.names, g.RefersTo ref id)
      (g.shapeWithin enterable ref) := by
  induction enterable, ref using g.shapeWithin_induction with
  | primitive enterable p =>
    rw [shapeWithin]
    exact fun id hid => absurd hid List.not_mem_nil
  | missing hmissing => exact absurd hmissing (typeDef_ne_error (href _ rfl))
  | named ht hname =>
    rw [shapeWithin_named ht hname]
    intro id hid
    obtain rfl := List.mem_singleton.mp hid
    exact .name .refl ht hname
  | again ht hname hout =>
    rw [shapeWithin_again ht hname hout]
    exact .round ⟨.refl, ht, hname⟩ (hway _ (href _ rfl) hout)
  | refused ht hname henter harms =>
    rw [shapeWithin_refused ht hname henter harms]
    exact .kind ⟨.refl, ht, hname⟩ (by rw [TypeKind.isComposite_eq, harms]; rfl)
  | @entered enterable id t arms ht hname henter harms ih =>
    have hmeets : g.Meets (.defined id) id t := ⟨.refl, ht, hname⟩
    -- Below the type, it is the one more id that may not be entered.
    have hbelow : ∀ arm ∈ arms, EndsIn (g.Culprit (.defined id))
        (fun shape => ∀ id' ∈ shape.names, g.RefersTo (.defined id) id')
        (g.armWithin (enterable.erase id) arm) := by
      intro arm harm
      cases arm with
      | none =>
        rw [armWithin]
        exact fun id' hid' => absurd hid' List.not_mem_nil
      | some part =>
        have hpart := (TypeKind.mem_parts_iff harms).mpr harm
        have hmade : g.MadeOf (.defined id) part := ⟨id, t, rfl, ht, hname, hpart⟩
        have hhead : ∀ fault, g.Culprit part fault → g.Culprit (.defined id) fault :=
          fun _ => Culprit.head hmade
        rw [armWithin_some]
        refine (ih part (h.hasRef_part (mem_of_typeDef ht) hpart) fun id' hid' hout => ?_).mono
          hhead fun shape hshape id' hid' => (hshape id' hid').head hmade
        by_cases heq : id' = id
        · exact heq ▸ .single hmade
        · have hout' : id' ∉ enterable := fun hin => hout ((List.mem_erase_of_ne heq).mpr hin)
          exact (hway id' hid' hout').tail hmade
    rw [shapeWithin_entered ht hname henter harms]
    refine EndsIn.map ((EndsIn.mapM hbelow).imp fun shapes hshapes id' hid' => ?_)
    rcases TypeKind.of_mem_names_shapeOfArms hid' with ⟨borrowed, hkind⟩ | ⟨shape, hshape, hid'⟩
    · exact .handle hmeets hkind
    · exact hshapes shape hshape id' hid'

/-- **The parts of what has a shape have shapes** below it. -/
theorem exists_shape_of_madeOf (h : g.shapeWithin enterable ref = .ok shape) {part : TypeRef}
    (hmade : g.MadeOf ref part) : ∃ id inner, ref = .defined id ∧
      g.shapeWithin (enterable.erase id) part = .ok inner ∧ inner.names ⊆ shape.names := by
  obtain ⟨id, t, rfl, ht, hname, hpart⟩ := hmade
  obtain ⟨-, arms, shapes, harms, rfl, hshapes⟩ := entered_of_shapeWithin ht hname h
  obtain ⟨inner, hmem, hinner⟩ := exists_of_mem_left hshapes
    ((TypeKind.mem_parts_iff harms).mp hpart)
  have hhandle : ∀ resource borrowed, t.kind ≠ .handle resource borrowed := by
    intro resource borrowed hkind
    rw [hkind] at hpart
    exact absurd hpart List.not_mem_nil
  refine ⟨id, inner, rfl, shapeWithin_of_arm hinner rfl, fun id' hid' => ?_⟩
  exact (TypeKind.mem_names_shapeOfArms hhandle).mpr ⟨inner, hmem, hid'⟩

/-- **What is led to from what has a shape has a shape**, with fewer ids to be
entered. -/
theorem LeadsTo.exists_shape (hleads : g.LeadsTo ref ref')
    (h : g.shapeWithin enterable ref = .ok shape) :
    ∃ enterable' inner, enterable'.Sublist enterable ∧ g.shapeWithin enterable' ref' = .ok inner ∧
      inner.names ⊆ shape.names := by
  induction hleads using Relation.ReflTransGen.head_induction_on generalizing enterable shape with
  | refl => exact ⟨enterable, shape, .refl _, h, List.Subset.refl _⟩
  | head hmade _ ih =>
    obtain ⟨id, inner, -, hinner, hnames⟩ := exists_shape_of_madeOf h hmade
    obtain ⟨enterable', inner', hsub, hinner', hnames'⟩ := ih hinner
    exact ⟨enterable', inner', hsub.trans List.erase_sublist, hinner',
      List.Subset.trans hnames' hnames⟩

/-- **What has a shape can be written inline.** A type that went round would have
to be entered below itself, where it may not be entered again. -/
theorem inlinable_of_shapeWithin (hnodup : enterable.Nodup)
    (h : g.shapeWithin enterable ref = .ok shape) : g.Inlinable ref := by
  intro id t hmeets
  obtain ⟨enterable', inner, hsub, hinner, -⟩ := hmeets.leads.exists_shape h
  obtain ⟨-, arms, -, harms, -⟩ := entered_of_shapeWithin hmeets.found hmeets.unnamed hinner
  refine ⟨by rw [TypeKind.isComposite_eq, harms]; rfl, fun hround => ?_⟩
  obtain ⟨part, hmade, hback⟩ := Relation.TransGen.head'_iff.mp hround
  obtain ⟨_, inner', heq, hinner', -⟩ := exists_shape_of_madeOf hinner hmade
  obtain rfl := TypeRef.defined.inj heq
  obtain ⟨enterable'', inner'', hsub', hinner'', -⟩ := LeadsTo.exists_shape hback hinner'
  have hagain := (entered_of_shapeWithin hmeets.found hmeets.unnamed hinner'').1
  exact (hnodup.sublist hsub).not_mem_erase (hsub'.subset hagain)

/-- A reference that points nowhere dangles. -/
theorem shapeOf_of_not_hasRef (href : ¬ g.HasRef ref) :
    ∃ id, ref = .defined id ∧ g.shapeOf ref = .error (.dangling .types id none) := by
  simp only [HasRef, not_forall] at href
  obtain ⟨id, rfl, hid⟩ := href
  refine ⟨id, rfl, ?_⟩
  rw [shapeOf, shapeWithin, typeDef_of_not_has hid]
  rfl

/-- What has a shape points at a type if anywhere. -/
theorem hasRef_of_shapeOf (hshape : g.shapeOf ref = .ok shape) : g.HasRef ref := by
  by_contra href
  obtain ⟨id, -, hdangling⟩ := shapeOf_of_not_hasRef href
  rw [hdangling] at hshape
  cases hshape

namespace Closed

variable (h : g.Closed)

include h

/-- What comes of the search that starts with all types. -/
theorem endsIn_shapeOf (href : g.HasRef ref) :
    EndsIn (g.Culprit ref) (fun shape => ∀ id ∈ shape.names, g.RefersTo ref id) (g.shapeOf ref) :=
  h.endsIn_shapeWithin g.typeIds ref href fun _ hid hout => absurd (mem_typeIds_iff.mpr hid) hout

/-- **A fault has a culprit.** -/
theorem culprit_of_shapeOf (href : g.HasRef ref) (hfault : g.shapeOf ref = .error fault) :
    g.Culprit ref fault := by
  have hends := h.endsIn_shapeOf href
  rw [hfault] at hends
  exact hends

/-- **A reference has a shape exactly when it can be written inline.** -/
theorem isOk_shapeOf_iff (href : g.HasRef ref) :
    (∃ shape, g.shapeOf ref = .ok shape) ↔ g.Inlinable ref := by
  constructor
  · rintro ⟨shape, hshape⟩
    exact inlinable_of_shapeWithin nodup_typeIds hshape
  · intro hinlinable
    cases hshape : g.shapeOf ref with
    | ok shape => exact ⟨shape, rfl⟩
    | error fault => exact absurd hinlinable (h.culprit_of_shapeOf href hshape).not_inlinable

/-- **A shape names what the reference refers to.** -/
theorem mem_names_iff (href : g.HasRef ref) (hshape : g.shapeOf ref = .ok shape) :
    id ∈ shape.names ↔ g.RefersTo ref id := by
  constructor
  · exact (h.endsIn_shapeOf href).of_eq_ok hshape id
  · rintro (⟨hleads, ht, hname⟩ | ⟨hmeets, hkind⟩)
    · obtain ⟨_, inner, -, hinner, hnames⟩ := hleads.exists_shape hshape
      rw [shapeWithin_named ht hname] at hinner
      obtain rfl := Except.ok.inj hinner
      exact hnames (List.mem_singleton_self _)
    · obtain ⟨_, inner, -, hinner, hnames⟩ := hmeets.leads.exists_shape hshape
      obtain ⟨-, _, shapes, -, rfl, -⟩ :=
        entered_of_shapeWithin hmeets.found hmeets.unnamed hinner
      rw [hkind] at hnames
      exact hnames (List.mem_singleton_self _)

end Closed

end Graph

end ComponentBindings
