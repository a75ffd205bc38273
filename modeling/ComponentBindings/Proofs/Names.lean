import ComponentBindings.Proofs.Declared
import Mathlib.Data.List.Nodup

/-!
# Names that are granted

Whatever is declared claims its identifier, and who is granted an identifier
holds it from then on. So the names of a declaration are on record: each has
the identifier that the convention gives it and holds it in the scope of its
siblings (`Claims.Holds`). This is what keeps siblings apart. An identifier
has one holder, so two siblings with one identifier have one name, and a list
of identifiers repeats something exactly when the list of their names does
(`Claims.HoldsAll.nodup_iff`).

`DeclarationHeld` and `SignatureHeld` say this of a declared type with all its
members and of a function with its parameters, each in the scope it belongs
to. That whatever is emitted is held so is put together as the emission is
(`Renderer.Follows.grants_type`, `Renderer.Follows.grants_signature`).
-/

namespace ComponentBindings

namespace Claims

variable {claims : Claims} {c : Convention} {scope : String}

/-- **A name that holds its identifier in a scope.** -/
structure Holds (claims : Claims) (c : Convention) (scope raw name : String) : Prop where
  /-- The identifier is that of the name. -/
  identifier : identifierOf c raw = .ok name
  /-- The name holds it. -/
  holder : claims.holder? scope name = some raw

/-- Several names that hold their identifiers in a scope. -/
def HoldsAll (claims : Claims) (c : Convention) (scope : String) :
    List String → List String → Prop :=
  List.Forall₂ (claims.Holds c scope)

/-- **Names that hold their identifiers in one scope repeat themselves exactly
when the identifiers do.** -/
theorem HoldsAll.nodup_iff {raws names : List String} (h : claims.HoldsAll c scope raws names) :
    names.Nodup ↔ raws.Nodup := by
  have hunique : Relator.BiUnique (claims.Holds c scope) := by
    refine ⟨fun raw raw' name h h' => ?_, fun raw name name' h h' => ?_⟩
    · exact Option.some.inj (h.holder.symm.trans h'.holder)
    · exact Except.ok.inj (h.identifier.symm.trans h'.identifier)
  exact (List.rel_nodup hunique h).symm

end Claims

/-! ## What is held by a declaration -/

/-- Whether a function is a method of a resource. -/
def Function.isMethod (f : Function) : Bool :=
  match f.attachment with
  | .method _ => true
  | _ => false

/-- Whether a function is a static function of a resource. -/
def Function.isStatic (f : Function) : Bool :=
  match f.attachment with
  | .static _ => true
  | _ => false

/-- Whether a function stands in the companion of a resource. -/
def Function.isCompanion (f : Function) : Bool :=
  match f.attachment with
  | .static _ | .constructor _ => true
  | _ => false

/-- **A signature whose names are held**: that of the function among its
siblings, and those of the parameters among themselves. -/
structure SignatureHeld (claims : Claims) (scope : String) (f : Function) (ps : List Param)
    (s : Signature) : Prop where
  /-- The function holds its identifier. -/
  name : claims.Holds .member scope f.name s.name
  /-- The parameters hold theirs. -/
  params : claims.HoldsAll .member (parameterScope scope s.name) (ps.map Param.name)
    (s.params.map Parameter.name)

/-- What a companion declares for a function, with the names held. -/
inductive CompanionHeld (claims : Claims) (scope : String) (f : Function) : CompanionMember → Prop
  /-- The parameters of a constructor are held below its position. -/
  | constructor {resource : Int} {position : Nat} {params : List Parameter} :
    f.attachment = .constructor resource →
    claims.HoldsAll .member (scope ++ ".apply(" ++ toString position ++ ")")
      (f.params.map Param.name) (params.map Parameter.name) →
      CompanionHeld claims scope f (.constructor params f.docs)
  /-- A static function is held as any other. -/
  | static {resource : Int} {s : Signature} : f.attachment = .static resource →
    SignatureHeld claims scope f f.params s → CompanionHeld claims scope f (.static s)

/-- **The members of a declared type hold their identifiers** in its scope. -/
inductive BodyHeld (g : Graph) (claims : Claims) (scope : String) (t : TypeDef) : TypeBody → Prop
  /-- The fields of a record. -/
  | record {fields : List Field} {members : List Parameter} : t.kind = .record fields →
    claims.HoldsAll .member scope (fields.map Field.name) (members.map Parameter.name) →
      BodyHeld g claims scope t (.record members)
  /-- The cases of a variant. -/
  | variant {cases : List Case} {ds : List CaseDeclaration} : t.kind = .variant cases →
    claims.HoldsAll .type scope (cases.map Case.name) (ds.map CaseDeclaration.name) →
      BodyHeld g claims scope t (.variant ds)
  /-- The cases of an enumeration. -/
  | enumeration {labels : List Label} {ds : List CaseDeclaration} : t.kind = .enumeration labels →
    claims.HoldsAll .type scope (labels.map Label.name) (ds.map CaseDeclaration.name) →
      BodyHeld g claims scope t (.variant ds)
  /-- The constants of flags. -/
  | flags {names identifiers : List String} {storage : Storage} : t.kind = .flags names →
    claims.HoldsAll .member scope names identifiers → BodyHeld g claims scope t
      (.flags storage identifiers)
  /-- The methods of a resource, beside the operation that disposes of a
  handle, and the members of its companion. -/
  | resource {identity : Argument} {raw : String} {functions : List Function}
    {methods : List Signature} {companion : List CompanionMember} : t.kind = .resource →
    g.resourceFunctions t.id = .ok functions →
    claims.holder? scope "close" = some "<drop>" →
    List.Forall₂ (fun f => SignatureHeld claims scope f (Renderer.withoutReceiver f.params))
      (functions.filter Function.isMethod) methods →
    List.Forall₂ (CompanionHeld claims (scope ++ "$")) (functions.filter Function.isCompanion)
      companion → BodyHeld g claims scope t (.resource identity raw methods companion)
  /-- Another name for a type has no members. -/
  | aliasOf {e : TypeExpr} : t.kind.isComposite = true → BodyHeld g claims scope t (.aliasOf e)

/-- **A declared type whose names are held**: its own in a module, and those of
its members below it. -/
structure DeclarationHeld (g : Graph) (claims : Claims) (scope : String) (t : TypeDef)
    (d : TypeDeclaration) : Prop where
  /-- It is for the definition. -/
  id : d.id = t.id
  /-- The type holds its identifier. -/
  name : ∃ raw, t.name = some raw ∧ claims.Holds .type scope raw d.name
  /-- The members hold theirs. -/
  body : BodyHeld g claims (scope ++ "." ++ unescape d.name) t d.body

/-! ## What is granted on the way -/

namespace Placement

variable {p : Placement}

/-- What claims are made for is granted. -/
theorem Grants.ofNaming {α : Type} {x : Naming α} {P : Claims → α → Prop}
    (h : ∀ claims a claims', x claims = .ok a claims' →
      claims <+: claims' ∧ ∀ more, claims' <+: more → P more a) :
    p.Grants (Emission.ofNaming x) P := by
  intro s a s' hs hrun
  obtain ⟨claims, hx, rfl⟩ := Emission.ofNaming_eq_ok.mp hrun
  obtain ⟨hbefore, ha⟩ := h _ _ _ hx
  have hgrows := Session.Grows.ofClaims hbefore
  exact ⟨hs.of_tables hgrows rfl rfl fun _ => .inl, hgrows, ha⟩

/-- A claim that is made is held. -/
theorem Grants.claim {scope identifier raw : String} :
    p.Grants (Emission.ofNaming (ComponentBindings.claim scope identifier raw))
      fun claims _ => claims.holder? scope identifier = some raw :=
  Grants.ofNaming fun _ _ _ h =>
    have hregister := claim_eq_ok.mp h
    ⟨Claims.isPrefix_of_register hregister, fun _ hmore =>
      Claims.holder?_of_isPrefix hmore (Claims.holder?_of_register hregister)⟩

/-- A name that is declared holds its identifier. -/
theorem Grants.declare {c : Convention} {raw scope : String} :
    p.Grants (Emission.ofNaming (ComponentBindings.declare c raw scope))
      fun claims name => claims.Holds c scope raw name :=
  Grants.ofNaming fun _ _ _ h =>
    have ⟨hname, hregister⟩ := declare_eq_ok.mp h
    ⟨Claims.isPrefix_of_register hregister, fun _ hmore =>
      ⟨hname, Claims.holder?_of_isPrefix hmore (Claims.holder?_of_register hregister)⟩⟩

end Placement

namespace Renderer

open Placement

variable {r : Renderer} {p : Placement}

/-- A member holds its identifier. -/
theorem Follows.grants_member (hr : r.Follows p) (scope raw : String) (type : TypeRef) :
    p.Grants (r.member scope raw type) fun claims m => claims.Holds .member scope raw m.name :=
  Grants.declare.bind fun _ => (hr.emits_render type).forget.bind fun _ =>
    Yields.pure fun _ _ hname => hname

/-- Parameters hold their identifiers. -/
theorem Follows.grants_params (hr : r.Follows p) (scope : String) (ps : List Param) :
    p.Grants (r.params scope ps) fun claims params =>
      claims.HoldsAll .member scope (ps.map Param.name) (params.map Parameter.name) :=
  (Yields.mapM ps fun param _ => hr.grants_member scope param.name param.type).imp
    fun _ _ h => List.forall₂_map_left_iff.mpr (List.forall₂_map_right_iff.mpr h)

/-- **The names of a signature are held.** -/
theorem Follows.grants_signature (hr : r.Follows p) (scope : String) (f : Function)
    (ps : List Param) :
    p.Grants (r.signature scope f ps) fun claims s => SignatureHeld claims scope f ps s := by
  unfold signature
  exact Grants.declare.bind fun name => (hr.grants_params _ ps).bind fun params =>
    (hr.emits_renderResults f.results).forget.bind fun _ =>
      Yields.pure fun _ _ hparams hname => ⟨hname, hparams⟩

/-- The fields of a record hold their identifiers. -/
theorem Follows.grants_record (hr : r.Follows p) (scope : String) {g : Graph} {t : TypeDef}
    {fields : List Field} (hkind : t.kind = .record fields) :
    p.Grants (r.emitRecord scope fields) fun claims body => BodyHeld g claims scope t body :=
  Yields.map _ <| (Yields.mapM fields fun f _ => hr.grants_member scope f.name f.type).imp
    fun _ _ h => .record hkind (List.forall₂_map_left_iff.mpr (List.forall₂_map_right_iff.mpr h))

/-- The cases of a variant hold their identifiers. -/
theorem Follows.grants_variant (hr : r.Follows p) (scope : String) {g : Graph} {t : TypeDef}
    {cases : List Case} (hkind : t.kind = .variant cases) :
    p.Grants (r.emitVariant scope cases) fun claims body => BodyHeld g claims scope t body := by
  unfold emitVariant
  refine Yields.map _ <| (Yields.mapM cases (R := fun claims c (d : CaseDeclaration) =>
    claims.Holds .type scope c.name d.name) fun c _ => Grants.declare.bind fun name => ?_).imp
    fun _ _ h => .variant hkind (List.forall₂_map_left_iff.mpr (List.forall₂_map_right_iff.mpr h))
  cases c.payload with
  | none => exact Yields.pure fun _ hname => hname
  | some ref => exact (hr.emits_render ref).forget.bind fun _ => Yields.pure fun _ _ hname => hname

/-- The cases of an enumeration hold their identifiers. -/
theorem grants_enumeration (scope : String) {g : Graph} {t : TypeDef} {labels : List Label}
    (hkind : t.kind = .enumeration labels) :
    p.Grants (emitEnumeration scope labels) fun claims body => BodyHeld g claims scope t body :=
  Yields.map _ <| (Yields.mapM labels (R := fun claims l (d : CaseDeclaration) =>
    claims.Holds .type scope l.name d.name) fun _ _ => Grants.declare.bind fun _ =>
      Yields.pure fun _ hname => hname).imp
    fun _ _ h => .enumeration hkind
      (List.forall₂_map_left_iff.mpr (List.forall₂_map_right_iff.mpr h))

/-- The constants of flags hold their identifiers. -/
theorem grants_flags (scope : String) {g : Graph} {t : TypeDef} {storage : Storage}
    {names : List String} (hkind : t.kind = .flags names) :
    p.Grants (emitFlags scope storage names) fun claims body => BodyHeld g claims scope t body := by
  unfold emitFlags
  exact Grants.claim.bind fun _ => Grants.claim.bind fun _ => Yields.map _ <|
    (Yields.mapM names fun name _ => Grants.declare).imp fun _ _ h _ _ => .flags hkind h

/-- **The methods of a resource hold their identifiers**, in the order in which
they are listed. -/
theorem Follows.grants_methods (hr : r.Follows p) (scope : String) (functions : List Function) :
    p.Grants (r.emitMethods scope functions) fun claims methods =>
      List.Forall₂ (fun f => SignatureHeld claims scope f (withoutReceiver f.params))
        (functions.filter Function.isMethod) methods := by
  unfold emitMethods
  refine (Yields.filterMapM functions (R := fun claims f found => found.elim (f.isMethod = false)
    fun s => f.isMethod = true ∧ SignatureHeld claims scope f (withoutReceiver f.params) s)
    fun f _ => ?_).imp ?_
  · cases hattachment : f.attachment with
    | method resource =>
      exact Yields.map _ ((hr.grants_signature scope f _).imp fun _ _ hs =>
        ⟨by simp [Function.isMethod, hattachment], hs⟩)
    | freestanding | static _ | constructor _ =>
      exact Yields.pure fun _ => by simp [Function.isMethod, hattachment]
  · rintro claims methods ⟨found, hall, rfl⟩
    exact forall₂_filter_filterMap hall (fun h hpick => by cases hpick; exact h)
      fun h hpick => by cases hpick; exact h

/-- **The members of a companion hold their identifiers**, in the order in
which they are listed. -/
theorem Follows.grants_companion (hr : r.Follows p) (scope : String)
    (functions : List Function) :
    p.Grants (r.emitCompanion scope functions) fun claims companion =>
      List.Forall₂ (CompanionHeld claims scope) (functions.filter Function.isCompanion)
        companion := by
  unfold emitCompanion
  refine (Yields.filterMapM functions.zipIdx
    (R := fun claims entry found => found.elim (entry.1.isCompanion = false)
      fun member => entry.1.isCompanion = true ∧ CompanionHeld claims scope entry.1 member)
    fun entry _ => ?_).imp ?_
  · obtain ⟨f, position⟩ := entry
    cases hattachment : f.attachment with
    | constructor resource =>
      simp only [hattachment]
      exact Grants.claim.bind fun _ => (hr.grants_params _ f.params).bind fun params =>
        Yields.pure fun _ hparams _ =>
          ⟨by simp [Function.isCompanion, hattachment], .constructor hattachment hparams⟩
    | static resource =>
      simp only [hattachment]
      exact (hr.grants_signature scope f f.params).bind fun s => Yields.pure fun _ hs =>
        ⟨by simp [Function.isCompanion, hattachment], .static hattachment hs⟩
    | freestanding | method _ =>
      simp only [hattachment]
      exact Yields.pure fun _ => by simp [Function.isCompanion, hattachment]
  · rintro claims companion ⟨found, hall, rfl⟩
    have hall' : List.Forall₂ (fun f (found : Option CompanionMember) =>
        found.elim (f.isCompanion = false) fun member =>
          f.isCompanion = true ∧ CompanionHeld claims scope f member) functions found := by
      rw [← List.zipIdx_map_fst 0 functions, List.forall₂_map_left_iff]
      exact hall
    exact forall₂_filter_filterMap hall' (fun h hpick => by cases hpick; exact h)
      fun h hpick => by cases hpick; exact h

/-- **The members of a resource hold their identifiers**, and so does the
operation that disposes of a handle. -/
theorem Follows.grants_resource (hr : r.Follows p) (site : Site) {t : TypeDef}
    (hkind : t.kind = .resource) :
    p.Grants (r.emitResource site t) fun claims d =>
      DeclarationHeld p.graph claims site.scope t d := by
  unfold emitResource
  by_cases hdirection : site.direction = .exported
  · rw [if_pos hdirection]
    exact Yields.throw_bind
  · rw [if_neg hdirection]
    cases hname : t.name with
    | none => exact Yields.throw
    | some raw =>
      refine Grants.declare.bind fun name => Grants.claim.bind fun _ =>
        Yields.ofExcept.bind fun functions => Yields.ofExcept.bind fun identity =>
          (hr.grants_methods _ functions).bind fun methods =>
            (hr.grants_companion _ functions).bind fun companion => Yields.pure fun claims => ?_
      intro hcompanion hmethods _ hfunctions hclose hderived
      rw [hr.graph] at hfunctions
      exact ⟨rfl, ⟨raw, hname, hderived⟩,
        .resource hkind hfunctions hclose hmethods hcompanion⟩

/-- A type that is declared holds its identifier, and its members hold
theirs. -/
theorem grants_declared {site : Site} {g : Graph} {t : TypeDef} {raw : String}
    (hname : t.name = some raw) {body : String → Emission TypeBody}
    (hbody : ∀ name, p.Grants (body name) fun claims b =>
      BodyHeld g claims (site.memberScope name) t b) :
    p.Grants (do
      let name ← Emission.ofNaming (declare .type raw site.scope)
      return { id := t.id, name, docs := t.docs, body := ← body name })
      fun claims d => DeclarationHeld g claims site.scope t d :=
  Grants.declare.bind fun name => (hbody name).bind fun _ =>
    Yields.pure fun _ hb hderived => ⟨rfl, ⟨raw, hname, hderived⟩, hb⟩

/-- **Whatever is emitted for a type holds its names.** -/
theorem Follows.grants_type (hr : r.Follows p) (site : Site) (t : TypeDef) :
    p.Grants (r.emitType site t) fun claims d => DeclarationHeld p.graph claims site.scope t d := by
  unfold emitType
  cases hname : t.name with
  | none => exact Yields.throw
  | some raw =>
    simp only
    cases hkind : t.kind with
    | record fields => exact grants_declared hname fun _ => hr.grants_record _ hkind
    | variant cases => exact grants_declared hname fun _ => hr.grants_variant _ hkind
    | enumeration labels => exact grants_declared hname fun _ => grants_enumeration _ hkind
    | flags names =>
      exact Yields.ofExcept.bind fun _ =>
        (grants_declared hname fun _ => grants_flags _ hkind).imp fun _ _ h _ => h
    | resource => exact hr.grants_resource site hkind
    | aliasOf _ | list _ | option _ | result _ _ | tuple _ | handle _ _ =>
      exact grants_declared hname fun _ => Yields.map _ <|
        (hr.emits_expand t).forget.imp fun _ _ _ => .aliasOf (by rw [hkind]; rfl)
    | future _ | stream _ => exact Yields.throw

/-- **Whatever is emitted for a function holds its names.** -/
theorem Follows.grants_function (hr : r.Follows p) (site : Site) (f : Function) :
    p.Grants (r.emitFunction site f) fun claims d =>
      SignatureHeld claims site.scope f f.params d.signature :=
  (hr.grants_signature _ f f.params).bind fun _ => Yields.ofExcept.bind fun _ =>
    Yields.pure fun _ _ hs => hs

end Renderer

end ComponentBindings
