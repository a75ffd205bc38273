import ComponentBindings.Proofs.Rendering

/-!
# How a shape is found

A type with a name is not looked into, and a type without one is put around
what its arms come to (`TypeKind.arms`, `TypeKind.shapeOfArms`). One may enter
it only once on the way down, and some kinds have no arms and are refused. The
definition of `Graph.shapeWithin` goes through the kinds one by one; here is
what it does at a type, whatever its kind, and an induction with one case for
each way to go on (`Graph.shapeWithin_induction`).
-/

namespace ComponentBindings

/-! ## Kinds that are written inline -/

namespace TypeKind

/-- The arms of a kind that is written inline, each with a type or with
nothing. -/
def arms : TypeKind → Option (List (Option TypeRef))
  | list element | option element | aliasOf element => some [some element]
  | result ok err => some [ok, err]
  | tuple items => some (items.map some)
  | handle _ _ => some []
  | record _ | variant _ | enumeration _ | flags _ | resource | future _ | stream _ => none

/-- The shape of a kind from the shapes of its arms. -/
def shapeOfArms : TypeKind → List Shape → Shape
  | list _, [element] => .list element
  | option _, [element] => .option element
  | aliasOf _, [target] => .aliasOf target
  | result _ _, [ok, err] => .result ok err
  | handle id _, _ => .handle id
  | _, items => .tuple items

/-- Why a type without a name is refused for its kind. -/
def refusal (kind : TypeKind) (id : Int) : Fault :=
  match kind with
  | .future _ | .stream _ => .unsupportedKind kind.label s!"type {id}"
  | _ => .unnamedDeclaration kind.label id

/-- The kinds with arms are those that are written out. -/
theorem isComposite_eq (kind : TypeKind) : kind.isComposite = kind.arms.isSome := by
  cases kind <;> rfl

/-- What stands in the arms are the parts. -/
theorem mem_parts_iff {kind : TypeKind} {arms : List (Option TypeRef)} (h : kind.arms = some arms)
    {ref : TypeRef} : ref ∈ kind.parts ↔ some ref ∈ arms := by
  cases kind with
  | list _ | option _ | aliasOf _ | handle _ _ =>
    obtain rfl := Option.some.inj h
    simp [parts]
  | result ok err =>
    obtain rfl := Option.some.inj h
    cases ok <;> cases err <;> simp [parts, eq_comm]
  | tuple items =>
    obtain rfl := Option.some.inj h
    simp [parts]
  | record _ | variant _ | enumeration _ | flags _ | resource | future _ | stream _ => cases h

/-- A shape that is put around others names what they name. -/
theorem mem_names_shapeOfArms {kind : TypeKind} {shapes : List Shape} {id : Int}
    (h : ∀ resource borrowed, kind ≠ .handle resource borrowed) :
    id ∈ (kind.shapeOfArms shapes).names ↔ ∃ shape ∈ shapes, id ∈ shape.names := by
  unfold shapeOfArms
  split
  · simp [Shape.names]
  · simp [Shape.names]
  · simp [Shape.names]
  · simp [Shape.names]
  · exact absurd rfl (h _ _)
  · exact Shape.mem_namesOfItems

/-- What a shape that is put around others names is the resource of a handle, or
is named by one of them. -/
theorem of_mem_names_shapeOfArms {kind : TypeKind} {shapes : List Shape} {id : Int}
    (h : id ∈ (kind.shapeOfArms shapes).names) :
    (∃ borrowed, kind = .handle id borrowed) ∨ ∃ shape ∈ shapes, id ∈ shape.names := by
  by_cases hhandle : ∃ resource borrowed, kind = .handle resource borrowed
  · obtain ⟨resource, borrowed, rfl⟩ := hhandle
    obtain rfl := List.mem_singleton.mp h
    exact .inl ⟨borrowed, rfl⟩
  · refine .inr ((mem_names_shapeOfArms ?_).mp h)
    exact fun resource borrowed hkind => hhandle ⟨resource, borrowed, hkind⟩

end TypeKind

namespace Graph

variable {g : Graph} {enterable : List Int} {id : Int} {t : TypeDef} {ref : TypeRef}
  {shape : Shape} {fault : Fault} {arms : List (Option TypeRef)}

/-! ## At a type -/

/-- An arm that is there has the shape of its reference. -/
theorem armWithin_some : g.armWithin enterable (some ref) = g.shapeWithin enterable ref := by
  rw [armWithin]

/-- A reference may point nowhere. -/
theorem shapeWithin_missing (h : g.typeDef id = .error fault) :
    g.shapeWithin enterable (.defined id) = .error fault := by
  rw [shapeWithin, h]
  rfl

/-- **The search at a type without a name**: it must not be on the way already,
and then it is put around what its arms come to. -/
theorem shapeWithin_unnamed (ht : g.typeDef id = .ok t) (hname : t.name = none) :
    g.shapeWithin enterable (.defined id) =
      if id ∈ enterable then
        t.kind.arms.elim (.error (t.kind.refusal id)) fun arms =>
          t.kind.shapeOfArms <$> arms.mapM (g.armWithin (enterable.erase id))
      else .error (.selfReference id) := by
  rw [shapeWithin, ht]
  show (if t.name.isSome = true then _ else if _h : id ∈ enterable then _ else _) = _
  rw [if_neg (by simp [hname])]
  by_cases henter : id ∈ enterable
  swap
  · rw [dif_neg henter, if_neg henter]
    rfl
  rw [dif_pos henter, if_pos henter]
  cases t.kind with
  | list element | option element | aliasOf element =>
    simp only [TypeKind.arms, Option.elim_some, List.mapM_cons, List.mapM_nil, armWithin]
    cases g.shapeWithin (enterable.erase id) element <;> rfl
  | result ok err =>
    simp only [TypeKind.arms, Option.elim_some, List.mapM_cons, List.mapM_nil]
    cases g.armWithin (enterable.erase id) ok with
    | error _ => rfl
    | ok _ => cases g.armWithin (enterable.erase id) err <;> rfl
  | tuple items =>
    simp only [TypeKind.arms, Option.elim_some, List.mapM_map, shapesWithin_eq_mapM]
    have harm : (fun ref => g.armWithin (enterable.erase id) (some ref))
        = g.shapeWithin (enterable.erase id) := funext fun ref => by rw [armWithin]
    show _ = TypeKind.shapeOfArms _ <$> items.mapM (fun ref => g.armWithin _ (some ref))
    rw [harm]
    cases items.mapM (g.shapeWithin (enterable.erase id)) with
    | error _ => rfl
    | ok _ => rfl
  | handle resource borrowed => rfl
  | record _ | variant _ | enumeration _ | flags _ | resource | future _ | stream _ => rfl

/-- Who comes back to a type without a name goes round. -/
theorem shapeWithin_again (ht : g.typeDef id = .ok t) (hname : t.name = none)
    (hout : id ∉ enterable) :
    g.shapeWithin enterable (.defined id) = .error (.selfReference id) := by
  rw [shapeWithin_unnamed ht hname, if_neg hout]

/-- A type without a name and without arms is refused. -/
theorem shapeWithin_refused (ht : g.typeDef id = .ok t) (hname : t.name = none)
    (henter : id ∈ enterable) (harms : t.kind.arms = none) :
    g.shapeWithin enterable (.defined id) = .error (t.kind.refusal id) := by
  rw [shapeWithin_unnamed ht hname, if_pos henter, harms]
  rfl

/-- A type without a name is put around what its arms come to. -/
theorem shapeWithin_entered (ht : g.typeDef id = .ok t) (hname : t.name = none)
    (henter : id ∈ enterable) (harms : t.kind.arms = some arms) :
    g.shapeWithin enterable (.defined id)
      = t.kind.shapeOfArms <$> arms.mapM (g.armWithin (enterable.erase id)) := by
  rw [shapeWithin_unnamed ht hname, if_pos henter, harms]
  rfl

/-- An arm of a result that is there has its shape. -/
theorem shapeWithin_of_arm {arm : Option TypeRef} (h : g.armWithin enterable arm = .ok shape)
    (href : ref ∈ arm) : g.shapeWithin enterable ref = .ok shape := by
  rw [Option.mem_def.mp href, armWithin] at h
  exact h

/-- A type without a name that has a shape has been entered, and is written
out. -/
theorem entered_of_shapeWithin (ht : g.typeDef id = .ok t) (hname : t.name = none)
    (h : g.shapeWithin enterable (.defined id) = .ok shape) :
    id ∈ enterable ∧ ∃ arms shapes, t.kind.arms = some arms ∧ shape = t.kind.shapeOfArms shapes ∧
      List.Forall₂ (fun arm inner => g.armWithin (enterable.erase id) arm = .ok inner) arms
        shapes := by
  rw [shapeWithin_unnamed ht hname] at h
  split at h
  · next henter =>
    cases harms : t.kind.arms with
    | none =>
      rw [harms] at h
      cases h
    | some arms =>
      rw [harms] at h
      obtain ⟨shapes, hshapes, rfl⟩ := except_map_eq_ok.mp h
      exact ⟨henter, arms, shapes, rfl, rfl, forall₂_of_mapM_eq_ok hshapes⟩
  · cases h

/-- **Induction on the way down from a reference**: below a type without a name,
it is the one more that may not be entered. -/
@[elab_as_elim]
theorem shapeWithin_induction (g : Graph) {motive : List Int → TypeRef → Prop}
    (primitive : ∀ enterable p, motive enterable (.primitive p))
    (missing : ∀ {enterable id fault}, g.typeDef id = .error fault →
      motive enterable (.defined id))
    (named : ∀ {enterable id t}, g.typeDef id = .ok t → t.name.isSome = true →
      motive enterable (.defined id))
    (again : ∀ {enterable id t}, g.typeDef id = .ok t → t.name = none → id ∉ enterable →
      motive enterable (.defined id))
    (refused : ∀ {enterable id t}, g.typeDef id = .ok t → t.name = none → id ∈ enterable →
      t.kind.arms = none → motive enterable (.defined id))
    (entered : ∀ {enterable id t arms}, g.typeDef id = .ok t → t.name = none → id ∈ enterable →
      t.kind.arms = some arms → (∀ part, motive (enterable.erase id) part) →
        motive enterable (.defined id))
    (enterable : List Int) (ref : TypeRef) : motive enterable ref := by
  induction hlength : enterable.length using Nat.strong_induction_on generalizing enterable ref with
  | h n ih =>
    cases ref with
    | primitive p => exact primitive enterable p
    | defined id =>
      cases ht : g.typeDef id with
      | error fault => exact missing ht
      | ok t =>
        cases hname : t.name with
        | some raw => exact named ht (by rw [hname]; rfl)
        | none =>
          by_cases henter : id ∈ enterable
          swap
          · exact again ht hname henter
          cases harms : t.kind.arms with
          | none => exact refused ht hname henter harms
          | some arms =>
            refine entered ht hname henter harms fun part => ih _ ?_ _ part rfl
            have := List.length_erase_of_mem henter
            have := List.length_pos_of_mem henter
            omega

end Graph

end ComponentBindings
