import ComponentBindings.Proofs.Returned
import ComponentBindings.Proofs.Shapes

/-!
# What a declaration refers to

The declaration of a type is written with the types of its fields, cases or
target, that of a resource with the types of the parameters and results of its
functions, and a function with those of its own (`Graph.refsOf`,
`Function.refs`). These references are data of the graph. What is in a module
are expressions, and the two are tied together by the shapes: each reference
has a shape, and there is an expression in the declaration that names whatever
the shape names (`BodyOf.written`, `FunctionOf.written`). So what is
said about references by way of their shapes holds of the text that is
generated, and what is said about the names in a module holds of the graph.
-/

namespace ComponentBindings

/-! ## References -/

/-- The types that a type refers to where it is written out: its parts, and for
a handle the resource behind it. -/
def TypeKind.refs : TypeKind → List TypeRef
  | handle id _ => [.defined id]
  | kind => kind.parts

/-- The parameters that a function is written with: those of a method come
without the value that it is a method of. -/
def Function.writtenParams (f : Function) : List Param :=
  match f.attachment with
  | .method _ => Renderer.withoutReceiver f.params
  | _ => f.params

/-- The results that a function is written with. A constructor is written
without any. -/
def Function.writtenResults (f : Function) : List TypeRef :=
  match f.attachment with
  | .constructor _ => []
  | _ => f.results

/-- The types that a function is written with. -/
def Function.refs (f : Function) : List TypeRef :=
  f.writtenParams.map Param.type ++ f.writtenResults

/-- **The types that the declaration of a type is written with.** -/
def Graph.refsOf (g : Graph) (t : TypeDef) : List TypeRef :=
  match t.kind with
  | .resource => ((g.resourceFunctions t.id).toOption.getD []).flatMap Function.refs
  | kind => kind.refs

/-- A type that is named where references are written. -/
def Graph.Names (g : Graph) (refs : List TypeRef) (id : Int) : Prop :=
  ∃ ref ∈ refs, ∃ shape, g.shapeOf ref = .ok shape ∧ id ∈ shape.names

/-- **A reference that is written** in one of some expressions, or in a part of
one: it has a shape, and what the shape names is named there. -/
def TypeRef.WrittenIn (g : Graph) (w : Wording) (es : List TypeExpr) (ref : TypeRef) : Prop :=
  ∃ shape, g.shapeOf ref = .ok shape ∧
    ∃ e ∈ es, shape.names ⊆ e.shape.names ∧ (e.shape.spell w).isSome

/-! ## The shapes of parts -/

namespace Graph

/-- The shape of what a composite stands for, below composites that leave the
`enterable` ids to be entered. -/
def expansionWithin (g : Graph) (enterable : List Int) (t : TypeDef) : Except Fault Shape :=
  match t.kind with
  | .list element => .list <$> g.shapeWithin enterable element
  | .option element => .option <$> g.shapeWithin enterable element
  | .result ok err => do
    let ok ← g.armWithin enterable ok
    let err ← g.armWithin enterable err
    return .result ok err
  | .tuple items => .tuple <$> g.shapesWithin enterable items
  | .handle resource _ => .ok (.handle resource)
  | .aliasOf target => .aliasOf <$> g.shapeWithin enterable target
  | _ => .error (.notComposite t.id)

variable {g : Graph} {enterable : List Int} {t : TypeDef} {shape : Shape} {ref : TypeRef}

/-- A named composite is written out below no other one. -/
theorem expansion_eq : g.expansion t = g.expansionWithin g.typeIds t := by
  unfold expansion expansionWithin
  cases t.kind <;> rfl

/-- Only a composite stands for something. -/
theorem isComposite_of_expansionWithin (h : g.expansionWithin enterable t = .ok shape) :
    t.kind.isComposite = true := by
  unfold expansionWithin at h
  cases hkind : t.kind <;> simp_all [TypeKind.isComposite]

/-- **A type without a name has the shape of what it stands for.** -/
theorem expansionWithin_of_shapeWithin {id : Int} (ht : g.typeDef id = .ok t)
    (hname : t.name = none) (h : g.shapeWithin enterable (.defined id) = .ok shape) :
    g.expansionWithin (enterable.erase id) t = .ok shape := by
  rw [shapeWithin, ht] at h
  simp only [except_bind_eq_ok, Except.ok.injEq, exists_eq_left', hname, Option.isSome_none,
    Bool.false_eq_true, if_false] at h
  unfold expansionWithin
  split at h
  · cases hkind : t.kind <;> simp_all
  · cases h

/-- **The parts of a composite have shapes below its own.** So has the resource of
a handle, if it has a name. -/
theorem exists_shape_of_mem_refs (h : g.expansionWithin enterable t = .ok shape)
    (hnamed : ∀ id ∈ shape.names, ∃ t, g.typeDef id = .ok t ∧ t.name.isSome)
    (href : ref ∈ t.kind.refs) :
    ∃ part, g.shapeWithin enterable ref = .ok part ∧ part.names ⊆ shape.names := by
  unfold expansionWithin at h
  cases hkind : t.kind with
  | list element | option element | aliasOf target =>
    rw [hkind] at href
    simp only [hkind, except_map_eq_ok] at h
    obtain ⟨part, hpart, rfl⟩ := h
    rw [List.mem_singleton.mp href]
    exact ⟨part, hpart, List.Subset.refl _⟩
  | result ok err =>
    rw [hkind] at href
    simp only [hkind, except_bind_eq_ok, except_pure_eq_ok] at h
    obtain ⟨okShape, hok, errShape, herr, rfl⟩ := h
    rw [Shape.names]
    cases List.mem_append.mp href with
    | inl href =>
      exact ⟨okShape, shapeWithin_of_arm hok (Option.mem_toList.mp href),
        List.subset_append_left _ _⟩
    | inr href =>
      exact ⟨errShape, shapeWithin_of_arm herr (Option.mem_toList.mp href),
        List.subset_append_right _ _⟩
  | tuple items =>
    rw [hkind] at href
    simp only [hkind, except_map_eq_ok] at h
    obtain ⟨shapes, hshapes, rfl⟩ := h
    rw [shapesWithin_eq_mapM] at hshapes
    obtain ⟨part, hmem, hpart⟩ := exists_of_mem_left (forall₂_of_mapM_eq_ok hshapes) href
    exact ⟨part, hpart, fun id hid => Shape.mem_namesOfItems.mpr ⟨part, hmem, hid⟩⟩
  | handle resource borrowed =>
    rw [hkind] at href
    simp only [hkind, Except.ok.injEq] at h
    obtain rfl := h
    rw [List.mem_singleton.mp href]
    have hresource : resource ∈ (Shape.handle resource).names := by
      rw [Shape.names]
      exact List.mem_singleton_self resource
    obtain ⟨t, ht, hname⟩ := hnamed resource hresource
    refine ⟨.named resource, shapeWithin_named ht hname, ?_⟩
    rw [Shape.names, Shape.names]
    exact List.Subset.refl _
  | record _ | variant _ | enumeration _ | flags _ | resource | future _ | stream _ =>
    simp [hkind] at h

end Graph

section Written

variable {g : Graph} {w : Wording} {es es' : List TypeExpr} {ref : TypeRef}

/-- What is written is written in more expressions. -/
theorem TypeRef.WrittenIn.mono (h : ref.WrittenIn g w es) (hmore : es ⊆ es') :
    ref.WrittenIn g w es' := by
  obtain ⟨shape, hshape, e, he, hnames⟩ := h
  exact ⟨shape, hshape, e, hmore he, hnames⟩

/-- An expression for a reference is where it is written. -/
theorem TypeRef.writtenIn_of_writes {e : TypeExpr} (h : e.Writes w (g.shapeOf ref)) (he : e ∈ es) :
    ref.WrittenIn g w es :=
  ⟨e.shape, h.1, e, he, List.Subset.refl _, Option.isSome_iff_exists.mpr ⟨e.text, h.2⟩⟩

/-- What is named where references are written is named in the expressions. -/
theorem exists_names_of_written {refs : List TypeRef}
    (h : ∀ ref ∈ refs, ref.WrittenIn g w es) {id : Int} (hid : g.Names refs id) :
    ∃ e ∈ es, id ∈ e.shape.names := by
  obtain ⟨ref, href, shape, hshape, hname⟩ := hid
  obtain ⟨shape', hshape', e, he, hnames, -⟩ := h ref href
  obtain rfl := Except.ok.inj (hshape.symm.trans hshape')
  exact ⟨e, he, hnames hname⟩

/-- **Each part of a tuple is written where the tuple is.** -/
theorem TypeRef.writtenIn_of_writes_tuple {e : TypeExpr} {refs : List TypeRef}
    (h : e.Writes w (g.shapeOfTuple refs)) (he : e ∈ es) :
    ∀ ref ∈ refs, ref.WrittenIn g w es := by
  intro ref href
  obtain ⟨shapes, hshapes, hshape⟩ := except_map_eq_ok.mp h.1
  rw [Graph.shapesWithin_eq_mapM] at hshapes
  obtain ⟨shape, hmem, hof⟩ := exists_of_mem_left (forall₂_of_mapM_eq_ok hshapes) href
  refine ⟨shape, hof, e, he, fun id hid => ?_, Option.isSome_iff_exists.mpr ⟨e.text, h.2⟩⟩
  rw [← hshape]
  exact Shape.mem_namesOfItems.mpr ⟨shape, hmem, hid⟩

/-- The results of a function are written where their shape is. -/
theorem TypeRef.writtenIn_of_writes_results {e : TypeExpr} {results : List TypeRef}
    (h : e.Writes w (g.shapeOfResults results)) (he : e ∈ es) :
    ∀ ref ∈ results, ref.WrittenIn g w es := by
  match results with
  | [] => exact fun ref href => absurd href List.not_mem_nil
  | [result] =>
    intro ref href
    obtain rfl := List.mem_singleton.mp href
    exact writtenIn_of_writes h he
  | first :: second :: rest => exact writtenIn_of_writes_tuple h he

/-! ## Members and functions -/

/-- Members are written with their types. -/
theorem written_of_members {α : Type} {raw : α → String} {type : α → TypeRef} {xs : List α}
    {members : List Parameter}
    (h : List.Forall₂ (fun x => MemberOf g w (raw x) (type x)) xs members) :
    ∀ ref ∈ xs.map type, ref.WrittenIn g w (members.map Parameter.type) := by
  intro ref href
  obtain ⟨x, hx, rfl⟩ := List.mem_map.mp href
  obtain ⟨m, hm, hmember⟩ := exists_of_mem_left h hx
  exact TypeRef.writtenIn_of_writes hmember.type (List.mem_map_of_mem hm)

/-- A signature is written with the types of its parameters and results. -/
theorem SignatureOf.written {f : Function} {ps : List Param} {s : Signature}
    (h : SignatureOf g w f ps s) :
    ∀ ref ∈ ps.map Param.type ++ f.results, ref.WrittenIn g w s.expressions := by
  intro ref href
  cases List.mem_append.mp href with
  | inl href => exact (written_of_members h.params ref href).mono (List.subset_append_left _ _)
  | inr href =>
    have hresult : s.result ∈ s.expressions := List.mem_append_right _ List.mem_cons_self
    exact TypeRef.writtenIn_of_writes_results h.result hresult ref href

/-- **A declared function is written with the types of the function.** -/
theorem FunctionOf.written {site : Site} {f : Function} {d : FreeFunction}
    (h : FunctionOf g w site f d) (hfree : f.isFreestanding = true) :
    ∀ ref ∈ f.refs, ref.WrittenIn g w d.signature.expressions := by
  have hattachment : f.attachment = .freestanding := by simpa [Function.isFreestanding] using hfree
  have hrefs : f.refs = f.params.map Param.type ++ f.results := by
    simp [Function.refs, Function.writtenParams, Function.writtenResults, hattachment]
  rw [hrefs]
  exact h.signature.written

/-- A function of a resource is attached to it. -/
theorem Graph.resource?_of_resourceFunctions {r : Int} {functions : List Function}
    (h : g.resourceFunctions r = .ok functions) {f : Function} (hf : f ∈ functions) :
    f.attachment.resource? = some r := by
  obtain ⟨t, -, hfunctions⟩ := except_bind_eq_ok.mp h
  cases howner : t.owner with
  | none =>
    rw [howner] at hfunctions
    rw [← except_pure_eq_ok.mp hfunctions] at hf
    exact absurd hf List.not_mem_nil
  | some owner =>
    rw [howner] at hfunctions
    obtain ⟨all, -, hall⟩ := except_bind_eq_ok.mp hfunctions
    rw [← except_pure_eq_ok.mp hall] at hf
    simpa using (List.mem_filter.mp hf).2

/-- **A function of a resource is written** in the trait or in the companion. -/
theorem written_of_resource {functions : List Function} {methods : List (Option Signature)}
    {companion : List (Option CompanionMember)}
    (hmethods : List.Forall₂ (MethodOf g w) functions methods)
    (hcompanion : List.Forall₂ (CompanionOf g w) functions companion) {f : Function}
    (hf : f ∈ functions) (hattached : f.attachment ≠ .freestanding) :
    ∀ ref ∈ f.refs, ref.WrittenIn g w
      (methods.reduceOption.flatMap Signature.expressions ++
        companion.reduceOption.flatMap CompanionMember.expressions) := by
  obtain ⟨found, hfound, hmethod⟩ := exists_of_mem_left hmethods hf
  obtain ⟨member, hmember, hcompanionOf⟩ := exists_of_mem_left hcompanion hf
  unfold Function.refs Function.writtenParams Function.writtenResults
  intro ref href
  cases hattachment : f.attachment with
  | freestanding => exact absurd hattachment hattached
  | method resource =>
    simp only [hattachment] at href
    cases hmethod with
    | other hno => exact absurd hattachment (hno resource)
    | @method _ s _ hs =>
      have hin : s ∈ methods.reduceOption := List.reduceOption_mem_iff.mpr hfound
      refine (hs.written ref href).mono fun e he => List.mem_append_left _ ?_
      exact List.mem_flatMap.mpr ⟨s, hin, he⟩
  | static resource =>
    simp only [hattachment] at href
    cases hcompanionOf with
    | other _ hno => exact absurd hattachment (hno resource)
    | constructor hother _ => rw [hattachment] at hother; cases hother
    | @static _ s _ hs =>
      have hin : .static s ∈ companion.reduceOption := List.reduceOption_mem_iff.mpr hmember
      refine (hs.written ref href).mono fun e he => List.mem_append_right _ ?_
      exact List.mem_flatMap.mpr ⟨_, hin, he⟩
  | constructor resource =>
    simp only [hattachment, List.append_nil] at href
    cases hcompanionOf with
    | other hno _ => exact absurd hattachment (hno resource)
    | static hother _ => rw [hattachment] at hother; cases hother
    | @constructor _ params _ hparams =>
      have hin : .constructor params f.docs ∈ companion.reduceOption :=
        List.reduceOption_mem_iff.mpr hmember
      refine (written_of_members hparams ref href).mono fun e he => List.mem_append_right _ ?_
      exact List.mem_flatMap.mpr ⟨_, hin, he⟩

/-! ## Types -/

/-- **A composite that is written out is written with its parts.** The resource
of a handle is referred to by name, so a name has to be what a wording is
for. -/
theorem TypeRef.writtenIn_of_expansion {t : TypeDef} {e : TypeExpr}
    (hnamed : ∀ id, (w id).isSome → ∃ t, g.typeDef id = .ok t ∧ t.name.isSome)
    (h : e.Writes w (g.expansion t)) : ∀ ref ∈ t.kind.refs, ref.WrittenIn g w [e] := by
  intro ref href
  have hshape := h.1
  rw [Graph.expansion_eq] at hshape
  obtain ⟨shape, hof, hnames⟩ := Graph.exists_shape_of_mem_refs hshape
    (fun id hid => hnamed id (Shape.isSome_of_spell _ h.2 id hid)) href
  exact ⟨shape, hof, e, List.mem_singleton_self e, hnames,
    Option.isSome_iff_exists.mpr ⟨e.text, h.2⟩⟩

/-- **The content of a declared type is written with the types of its
definition.** -/
theorem BodyOf.written {site : Site} {t : TypeDef} {body : TypeBody}
    (hnamed : ∀ id, (w id).isSome → ∃ t, g.typeDef id = .ok t ∧ t.name.isSome)
    (h : BodyOf g w site t body) : ∀ ref ∈ g.refsOf t, ref.WrittenIn g w body.expressions := by
  unfold Graph.refsOf
  cases h with
  | record hkind hmembers =>
    rw [hkind]
    exact written_of_members hmembers
  | variant hkind hcases =>
    rw [hkind]
    intro ref href
    obtain ⟨c, hc, hpayload⟩ := List.mem_filterMap.mp href
    obtain ⟨d, hd, hcase⟩ := exists_of_mem_left hcases hc
    have hrel := hcase.payload
    rw [hpayload] at hrel
    generalize hexpr : d.payload = payload at hrel
    cases hrel with
    | @some _ e hwrites =>
      exact TypeRef.writtenIn_of_writes hwrites (List.mem_filterMap.mpr ⟨d, hd, hexpr⟩)
  | enumeration hkind _ | flags hkind _ _ =>
    rw [hkind]
    exact fun ref href => absurd href List.not_mem_nil
  | resource hkind _ _ _ hfunctions hmethods hcompanion =>
    rw [hkind, hfunctions]
    intro ref href
    obtain ⟨f, hf, href⟩ := List.mem_flatMap.mp href
    refine written_of_resource hmethods hcompanion hf (fun hfree => ?_) ref href
    have hattached := Graph.resource?_of_resourceFunctions hfunctions hf
    rw [hfree] at hattached
    cases hattached
  | aliasOf hkind hwrites =>
    intro ref href
    refine TypeRef.writtenIn_of_expansion hnamed hwrites ref ?_
    cases hk : t.kind <;> simp_all

end Written

end ComponentBindings
