import ComponentBindings.Emit
import ComponentBindings.Proofs.Rendering

/-!
# What a declaration declares

A declaration is faithful to a definition when it consists of the same parts
in the same order, every part under the identifier of its name and with its
type written as the shape of the type (`DeclarationOf`, `FunctionOf`). The
relation says nothing about how the declaration came about: not in which
order identifiers were claimed, and not which texts were remembered. All it
needs to know of the rest of the run is the wording, that is how the types of
other modules are referred to.

`Renderer.Follows.emits_type` and `Renderer.Follows.emits_function` say that
whatever is emitted is faithful. They are put together as the emission is:
one statement for each step, and the steps in a row by `Yields.bind`.
-/

namespace ComponentBindings

/-- An identifier with its type is that of a member with a name and a type. -/
structure MemberOf (g : Graph) (w : Wording) (raw : String) (type : TypeRef) (m : Parameter) :
    Prop where
  /-- The identifier is that of the name. -/
  name : identifierOf .member raw = .ok m.name
  /-- The type is written as its shape. -/
  type : m.type.Writes w (g.shapeOf type)

/-- Identifiers with their types are the parameters of a function. -/
def ParamsOf (g : Graph) (w : Wording) (ps : List Param) (params : List Parameter) : Prop :=
  List.Forall₂ (fun p => MemberOf g w p.name p.type) ps params

/-- **A signature is that of a function**, with some of its parameters. -/
structure SignatureOf (g : Graph) (w : Wording) (f : Function) (ps : List Param) (s : Signature) :
    Prop where
  /-- The name of the definition is repeated. -/
  raw : s.raw = f.name
  /-- The identifier is that of the name. -/
  name : identifierOf .member f.name = .ok s.name
  /-- The parameters are those of the function. -/
  params : ParamsOf g w ps s.params
  /-- The result is written as the shape of the results. -/
  result : s.result.Writes w (g.shapeOfResults f.results)
  /-- The documentation is that of the function. -/
  docs : s.docs = f.docs

/-- A declared case is that of a variant. -/
structure CaseOf (g : Graph) (w : Wording) (c : Case) (d : CaseDeclaration) : Prop where
  /-- The identifier is that of the name. -/
  name : identifierOf .type c.name = .ok d.name
  /-- What the case carries is written as its shape. -/
  payload : Option.Rel (fun ref e => e.Writes w (g.shapeOf ref)) c.payload d.payload

/-- A declared case is that of an enumeration. -/
structure LabelOf (l : Label) (d : CaseDeclaration) : Prop where
  /-- The identifier is that of the name. -/
  name : identifierOf .type l.name = .ok d.name
  /-- The case carries nothing. -/
  payload : d.payload = none

/-- What a function of a resource is declared as among the methods: itself if
it is one. -/
inductive MethodOf (g : Graph) (w : Wording) (f : Function) : Option Signature → Prop
  /-- A method is declared without the value that it is a method of. -/
  | method {resource : Int} {s : Signature} : f.attachment = .method resource →
    SignatureOf g w f (Renderer.withoutReceiver f.params) s → MethodOf g w f (some s)
  /-- Other functions are not declared there. -/
  | other : (∀ resource, f.attachment ≠ .method resource) → MethodOf g w f none

/-- What a function of a resource is declared as in the companion. -/
inductive CompanionOf (g : Graph) (w : Wording) (f : Function) : Option CompanionMember → Prop
  /-- A constructor is declared with its parameters. -/
  | constructor {resource : Int} {params : List Parameter} :
    f.attachment = .constructor resource → ParamsOf g w f.params params →
      CompanionOf g w f (some (.constructor params f.docs))
  /-- A static function is declared with its signature. -/
  | static {resource : Int} {s : Signature} : f.attachment = .static resource →
    SignatureOf g w f f.params s → CompanionOf g w f (some (.static s))
  /-- Other functions are not declared there. -/
  | other : (∀ resource, f.attachment ≠ .constructor resource) →
    (∀ resource, f.attachment ≠ .static resource) → CompanionOf g w f none

/-- **The content of a declared type is that of its definition.** -/
inductive BodyOf (g : Graph) (w : Wording) (site : Site) (t : TypeDef) : TypeBody → Prop
  /-- A record has its fields. -/
  | record {fields : List Field} {members : List Parameter} : t.kind = .record fields →
    List.Forall₂ (fun f => MemberOf g w f.name f.type) fields members →
      BodyOf g w site t (.record members)
  /-- A variant has its cases. -/
  | variant {cases : List Case} {ds : List CaseDeclaration} : t.kind = .variant cases →
    List.Forall₂ (CaseOf g w) cases ds → BodyOf g w site t (.variant ds)
  /-- An enumeration is a variant whose cases carry nothing. -/
  | enumeration {labels : List Label} {ds : List CaseDeclaration} : t.kind = .enumeration labels →
    List.Forall₂ LabelOf labels ds → BodyOf g w site t (.variant ds)
  /-- Flags have their names, and storage for all of them. -/
  | flags {names identifiers : List String} {storage : Storage} {raw : String} :
    t.kind = .flags names → Storage.ofCount raw names.length = .ok storage →
    List.Forall₂ (fun name identifier => identifierOf .member name = .ok identifier) names
      identifiers → BodyOf g w site t (.flags storage identifiers)
  /-- A resource has its methods, and the other functions in its companion. -/
  | resource {identity : Argument} {raw : String} {functions : List Function}
    {methods : List (Option Signature)} {companion : List (Option CompanionMember)} :
    t.kind = .resource → t.name = some raw → site.argument = .ok identity →
    site.direction = .imported → g.resourceFunctions t.id = .ok functions →
    List.Forall₂ (MethodOf g w) functions methods →
    List.Forall₂ (CompanionOf g w) functions companion →
      BodyOf g w site t (.resource identity raw methods.reduceOption companion.reduceOption)
  /-- A named composite is another name for what it stands for. -/
  | aliasOf {e : TypeExpr} : t.kind ≠ .resource → e.Writes w (g.expansion t) →
    BodyOf g w site t (.aliasOf e)

/-- **A declaration is that of a type definition.** -/
structure DeclarationOf (g : Graph) (w : Wording) (site : Site) (t : TypeDef)
    (d : TypeDeclaration) : Prop where
  /-- It is for the definition. -/
  id : d.id = t.id
  /-- The definition has a name, and the identifier is that of the name. -/
  name : t.identifier = .ok d.name
  /-- The documentation is that of the definition. -/
  docs : d.docs = t.docs
  /-- The content is that of the definition. -/
  body : BodyOf g w site t d.body

/-- A declaration goes to the resources exactly when a resource is
declared. -/
theorem DeclarationOf.isResource_iff {g : Graph} {w : Wording} {site : Site} {t : TypeDef}
    {d : TypeDeclaration} (h : DeclarationOf g w site t d) :
    d.isResource = true ↔ t.kind = .resource := by
  unfold TypeDeclaration.isResource
  obtain ⟨id, name, docs, body⟩ := d
  have hbody : BodyOf g w site t body := h.body
  cases hbody with
  | record hkind _ | variant hkind _ | enumeration hkind _ | flags hkind _ _ => simp [hkind]
  | resource hkind _ _ _ _ _ _ => simp [hkind]
  | aliasOf hkind _ => simp [hkind]

/-- **A declared function is one that belongs to no resource.** -/
structure FunctionOf (g : Graph) (w : Wording) (site : Site) (f : Function) (d : FreeFunction) :
    Prop where
  /-- It stands where its module does. -/
  direction : d.direction = site.direction
  /-- It names the owner of the function. -/
  identity : site.argument = .ok d.identity
  /-- The signature is that of the function. -/
  signature : SignatureOf g w f f.params d.signature

namespace Renderer

open Placement

variable {r : Renderer} {p : Placement}

/-- A member is emitted. -/
theorem Follows.emits_member (hr : r.Follows p) (scope raw : String) (type : TypeRef) :
    p.Emits r.scope (r.member scope raw type) fun w m => MemberOf p.graph w raw type m := by
  unfold member
  exact Yields.declare.bind fun name => (hr.emits_render type).bind fun e =>
    Yields.pure fun w he hname => ⟨hname, he⟩

/-- Parameters are emitted. -/
theorem Follows.emits_params (hr : r.Follows p) (scope : String) (ps : List Param) :
    p.Emits r.scope (r.params scope ps) fun w params => ParamsOf p.graph w ps params :=
  Yields.mapM ps fun param _ => hr.emits_member scope param.name param.type

/-- A signature is emitted. -/
theorem Follows.emits_signature (hr : r.Follows p) (scope : String) (f : Function)
    (ps : List Param) :
    p.Emits r.scope (r.signature scope f ps) fun w s => SignatureOf p.graph w f ps s := by
  unfold signature
  exact Yields.declare.bind fun name => (hr.emits_params _ ps).bind fun params =>
    (hr.emits_renderResults f.results).bind fun result =>
      Yields.pure fun w hresult hparams hname => ⟨rfl, hname, hparams, hresult, rfl⟩

/-- A case is emitted. -/
theorem Follows.emits_variant (hr : r.Follows p) (scope : String) (cases : List Case) :
    p.Emits r.scope (r.emitVariant scope cases) fun w body =>
      ∃ ds, body = .variant ds ∧ List.Forall₂ (CaseOf p.graph w) cases ds := by
  unfold emitVariant
  refine Yields.map _ ((Yields.mapM cases fun c _ => Yields.declare.bind fun name => ?_).imp
    fun w ds hds => ⟨ds, rfl, hds⟩)
  cases hpayload : c.payload with
  | none =>
    refine Yields.pure fun w hname => ⟨hname, ?_⟩
    rw [hpayload]
    exact .none
  | some payload =>
    refine (hr.emits_render payload).bind fun e => Yields.pure fun w he hname => ⟨hname, ?_⟩
    rw [hpayload]
    exact .some he

/-- Flags are emitted. -/
theorem emits_flags {module : Option Location} (scope : String) (storage : Storage)
    (names : List String) :
    p.Emits module (emitFlags scope storage names) fun _ body =>
      ∃ identifiers, body = .flags storage identifiers ∧ List.Forall₂
        (fun name identifier => identifierOf .member name = .ok identifier) names identifiers := by
  unfold emitFlags
  exact Yields.claim.bind fun _ => Yields.claim.bind fun _ => Yields.map _ <|
    (Yields.mapM names fun name _ => Yields.declare).imp fun w identifiers hall _ _ =>
      ⟨identifiers, rfl, hall⟩

/-- The methods of a resource are emitted. -/
theorem Follows.emits_methods (hr : r.Follows p) (scope : String) (functions : List Function) :
    p.Emits r.scope (r.emitMethods scope functions) fun w methods =>
      ∃ found, List.Forall₂ (MethodOf p.graph w) functions found ∧
        methods = found.reduceOption := by
  unfold emitMethods
  refine Yields.filterMapM functions fun f _ => ?_
  cases hattachment : f.attachment with
  | method resource =>
    exact Yields.map _ ((hr.emits_signature scope f _).imp fun w s hs => .method hattachment hs)
  | freestanding | static _ | constructor _ =>
    exact Yields.pure fun w => .other (by simp [hattachment])

/-- The companion of a resource is emitted. -/
theorem Follows.emits_companion (hr : r.Follows p) (scope : String) (functions : List Function) :
    p.Emits r.scope (r.emitCompanion scope functions) fun w companion =>
      ∃ found, List.Forall₂ (CompanionOf p.graph w) functions found ∧
        companion = found.reduceOption := by
  unfold emitCompanion
  refine (Yields.filterMapM functions.zipIdx
    (R := fun w entry member => CompanionOf p.graph w entry.1 member) fun entry _ => ?_).imp ?_
  · obtain ⟨f, position⟩ := entry
    cases hattachment : f.attachment with
    | constructor resource =>
      simp only [hattachment]
      exact Yields.claim.bind fun _ => (hr.emits_params _ f.params).bind fun params =>
        Yields.pure fun w hparams _ => .constructor hattachment hparams
    | static resource =>
      simp only [hattachment]
      exact (hr.emits_signature scope f f.params).bind fun s =>
        Yields.pure fun w hs => .static hattachment hs
    | freestanding | method _ =>
      simp only [hattachment]
      exact Yields.pure fun w => .other (by simp [hattachment]) (by simp [hattachment])
  · rintro w companion ⟨found, hall, rfl⟩
    refine ⟨found, ?_, rfl⟩
    rw [← List.zipIdx_map_fst 0 functions, List.forall₂_map_left_iff]
    exact hall

/-- **A resource is emitted.** -/
theorem Follows.emits_resource (hr : r.Follows p) (site : Site) {t : TypeDef}
    (hkind : t.kind = .resource) :
    p.Emits r.scope (r.emitResource site t) fun w d => DeclarationOf p.graph w site t d := by
  unfold emitResource
  by_cases hdirection : site.direction = .exported
  · rw [if_pos hdirection]
    exact Yields.throw_bind
  · rw [if_neg hdirection]
    have himported : site.direction = .imported := by
      cases h : site.direction
      · rfl
      · exact absurd h hdirection
    cases hname : t.name with
    | none => exact Yields.throw
    | some raw =>
      refine Yields.declare.bind fun name => Yields.claim.bind fun _ =>
        Yields.ofExcept.bind fun functions => Yields.ofExcept.bind fun identity =>
          (hr.emits_methods _ functions).bind fun methods =>
            (hr.emits_companion _ functions).bind fun companion => Yields.pure fun w => ?_
      rintro ⟨statics, hstatics, rfl⟩ ⟨signatures, hsignatures, rfl⟩ hidentity hfunctions _ hderived
      rw [hr.graph] at hfunctions
      have hidentifier : t.identifier = .ok name :=
        TypeDef.identifier_eq_ok_iff.mpr ⟨raw, hname, hderived⟩
      exact ⟨rfl, hidentifier, rfl,
        .resource hkind hname hidentity himported hfunctions hsignatures hstatics⟩

/-- A type is declared under the identifier of its name, with the content that
is emitted for it. -/
theorem emits_declared {scope : Option Location} {site : Site} {t : TypeDef} {raw : String}
    (hname : t.name = some raw) {body : String → Emission TypeBody}
    (hbody : ∀ name, p.Emits scope (body name) fun w b => BodyOf p.graph w site t b) :
    p.Emits scope (do
      let name ← Emission.ofNaming (declare .type raw site.scope)
      return { id := t.id, name, docs := t.docs, body := ← body name })
      fun w d => DeclarationOf p.graph w site t d := by
  refine Yields.declare.bind fun name => (hbody name).bind fun b =>
    Yields.pure fun w hb hderived => ⟨rfl, ?_, rfl, hb⟩
  exact TypeDef.identifier_eq_ok_iff.mpr ⟨raw, hname, hderived⟩

/-- **Everything that is emitted for a type definition is its declaration.** -/
theorem Follows.emits_type (hr : r.Follows p) (site : Site) (t : TypeDef) :
    p.Emits r.scope (r.emitType site t) fun w d => DeclarationOf p.graph w site t d := by
  unfold emitType
  cases hname : t.name with
  | none => exact Yields.throw
  | some raw =>
    simp only
    cases hkind : t.kind with
    | record fields =>
      refine emits_declared hname fun name => Yields.map _ ?_
      exact (Yields.mapM fields fun f _ => hr.emits_member _ f.name f.type).imp
        fun w members hmembers => .record hkind hmembers
    | variant cases =>
      refine emits_declared hname fun name => (hr.emits_variant _ cases).imp fun w body => ?_
      rintro ⟨ds, rfl, hds⟩
      exact .variant hkind hds
    | enumeration labels =>
      refine emits_declared hname fun name => Yields.map _ ?_
      exact (Yields.mapM labels fun l _ => Yields.declare.bind fun identifier =>
        Yields.pure fun w hderived => LabelOf.mk hderived rfl).imp
          fun w ds hds => .enumeration hkind hds
    | flags names =>
      cases hstorage : Storage.ofCount raw names.length with
      | error e =>
        simp only [hstorage]
        exact Yields.throw_bind
      | ok storage =>
        simp only [hstorage, Emission.ofExcept, pure_bind]
        refine emits_declared hname fun name => (emits_flags _ storage names).imp fun w body => ?_
        rintro ⟨identifiers, rfl, hall⟩
        exact .flags hkind hstorage hall
    | resource => exact hr.emits_resource site hkind
    | aliasOf _ | list _ | option _ | result _ _ | tuple _ | handle _ _ =>
      refine emits_declared hname fun name => Yields.map _ ?_
      exact (hr.emits_expand t).imp fun w e he => .aliasOf (by simp [hkind]) he
    | future _ | stream _ => exact Yields.throw

/-- **Everything that is emitted for a function is its declaration.** -/
theorem Follows.emits_function (hr : r.Follows p) (site : Site) (f : Function) :
    p.Emits r.scope (r.emitFunction site f) fun w d => FunctionOf p.graph w site f d := by
  unfold emitFunction
  exact (hr.emits_signature _ f f.params).bind fun s => Yields.ofExcept.bind fun identity =>
    Yields.pure fun w hidentity hs => ⟨rfl, hidentity, hs⟩

end Renderer

end ComponentBindings
