import ComponentBindings.Proofs.Conventions
import ComponentBindings.Proofs.Emitter
import ComponentBindings.Proofs.Returned
import ComponentBindings.Proofs.Search

/-!
# Names that a variant captures

The cases of a variant are declared inside the companion of the variant. A
case that carries something is a class there, and its name is found before
anything of the same name outside: before the variant itself, which every case
extends, and before the types that the cases carry and that are called by
their plain names. If it is one of these names, it is captured, and the
declaration means something else than its definition (`Captures`).

The claims of a run do not prevent that. The names of the cases are claimed in
a scope of their own, and nobody compares them with the names outside. What is
captured can be read from the definition all the same: a case captures a name
exactly if it has a namesake (`Clashes`), that is if the variant, or a type
that some case refers to and that is called plainly in the module, has a name
of the same words.
-/

namespace ComponentBindings

/-! ## Capture -/

/-- **A case that hides a name** of its variant: that of the variant, or that of
a type in what a case carries which is referred to by its plain name. -/
inductive Hides (g : Graph) (w : Wording) (d : TypeDeclaration) (ds : List CaseDeclaration)
    (c : CaseDeclaration) : Prop
  /-- The variant itself. -/
  | variant : c.name = d.name → Hides g w d ds c
  /-- A type that is referred to. -/
  | type {c' : CaseDeclaration} {e : TypeExpr} {id : Int} {u : TypeDef} : c' ∈ ds →
    c'.payload = some e → id ∈ e.shape.names → g.typeDef id = .ok u →
    u.identifier = .ok c.name → w id = some c.name → Hides g w d ds c

/-- **A declared variant that captures a name**: one of its cases is a class that
hides it. -/
def Captures (g : Graph) (w : Wording) (d : TypeDeclaration) : Prop :=
  ∃ ds, d.body = .variant ds ∧ ∃ c ∈ ds, c.payload.isSome = true ∧ Hides g w d ds c

/-- **A case with a namesake**: the variant, or a type that a case refers to and
that is called by its plain name. -/
inductive HasNamesake (g : Graph) (plain : TypeDef → Prop) (alike : String → String → Prop)
    (t : TypeDef) (cases : List Case) (c : Case) : Prop
  /-- The variant itself. -/
  | variant {raw : String} : t.name = some raw → alike c.name raw →
    HasNamesake g plain alike t cases c
  /-- A type that is referred to. -/
  | type {c' : Case} {payload : TypeRef} {id : Int} {u : TypeDef} {raw : String} : c' ∈ cases →
    c'.payload = some payload → g.RefersTo payload id → g.typeDef id = .ok u → plain u →
    u.name = some raw → alike c.name raw → HasNamesake g plain alike t cases c

/-- **A definition that clashes**: it has a case which carries something and has a
namesake. -/
def Clashes (g : Graph) (plain : TypeDef → Prop) (alike : String → String → Prop) (t : TypeDef)
    (cases : List Case) : Prop :=
  ∃ c ∈ cases, c.payload.isSome = true ∧ HasNamesake g plain alike t cases c

/-- Names that have one identifier as types. -/
def SameType (raw raw' : String) : Prop := identifierOf .type raw = identifierOf .type raw'

/-- Names of the same words. -/
def SameWords (raw raw' : String) : Prop := lowerWords raw = lowerWords raw'

/-- **A type that is called by its plain name in a module**: it has no owner, or
its owner declares its types there. -/
def CalledPlainly (place : TypeOwner → Except Fault Location) (scope : Option Location)
    (u : TypeDef) : Prop :=
  ∀ owner, u.owner = some owner → ∃ l, place owner = .ok l ∧ some l = scope

/-- The names of a variant, of its cases and of the types of the graph are
identifiers of an interface definition. -/
structure WitNamed (g : Graph) (t : TypeDef) (cases : List Case) : Prop where
  /-- The name of the variant is one. -/
  variant : ∀ raw, t.name = some raw → IsWitIdentifier raw
  /-- The names of the cases are. -/
  cases : ∀ c ∈ cases, IsWitIdentifier c.name
  /-- The names of the types are. -/
  types : ∀ u ∈ g.types, ∀ raw, u.name = some raw → IsWitIdentifier raw

/-- **A declared variant that captures exactly what its definition says**: it
consists of the cases of the definition, and captures a name exactly if the
definition clashes. -/
structure CapturesExactly (g : Graph) (w : Wording) (plain : TypeDef → Prop) (t : TypeDef)
    (cases : List Case) (d : TypeDeclaration) : Prop where
  /-- The cases are those of the definition, each with what it carries written
  as its shape. -/
  declared : ∃ ds, d.body = .variant ds ∧ List.Forall₂ (CaseOf g w) cases ds
  /-- A name is captured exactly if a case has a namesake. -/
  captures_iff : Captures g w d ↔ Clashes g plain SameType t cases
  /-- Namesakes are recognised by their words. -/
  words_iff : WitNamed g t cases → (Captures g w d ↔ Clashes g plain SameWords t cases)

/-! ## From the declaration to the definition -/

namespace CaseOf

variable {g : Graph} {w : Wording} {c : Case} {d : CaseDeclaration}

/-- A declared case carries something if the case does. -/
theorem isSome_payload (h : CaseOf g w c d) : d.payload.isSome = c.payload.isSome := by
  cases hc : c.payload <;> cases hd : d.payload <;> have hrel := h.payload <;>
    rw [hc, hd] at hrel <;> cases hrel <;> rfl

/-- What a declared case carries has the shape of what the case carries. -/
theorem exists_ref (h : CaseOf g w c d) {e : TypeExpr} (he : d.payload = some e) :
    ∃ ref, c.payload = some ref ∧ g.shapeOf ref = .ok e.shape := by
  have hrel := h.payload
  rw [he] at hrel
  cases hc : c.payload with
  | none =>
    rw [hc] at hrel
    cases hrel
  | some ref =>
    rw [hc] at hrel
    cases hrel with
    | some hwrites => exact ⟨ref, rfl, hwrites.1⟩

/-- What a case carries is carried by the declared case. -/
theorem exists_expr (h : CaseOf g w c d) {ref : TypeRef} (hc : c.payload = some ref) :
    ∃ e, d.payload = some e ∧ g.shapeOf ref = .ok e.shape := by
  cases he : d.payload with
  | none =>
    have hsome := h.isSome_payload
    rw [he, hc] at hsome
    cases hsome
  | some e =>
    obtain ⟨ref', hc', hshape⟩ := h.exists_ref he
    obtain rfl : ref = ref' := Option.some.inj (hc.symm.trans hc')
    exact ⟨e, rfl, hshape⟩

end CaseOf

namespace DeclarationOf

variable {g : Graph} {w : Wording} {site : Site} {t : TypeDef} {d : TypeDeclaration}
  {cases : List Case} {plain : TypeDef → Prop}

/-- A declared variant has the cases of the variant. -/
theorem exists_cases (h : DeclarationOf g w site t d) (hkind : t.kind = .variant cases) :
    ∃ ds, d.body = .variant ds ∧ List.Forall₂ (CaseOf g w) cases ds := by
  obtain ⟨id, name, docs, body⟩ := d
  have hbody : BodyOf g w site t body := h.body
  cases hbody with
  | record hother _ | enumeration hother _ | flags hother _ _ | resource hother _ _ _ _ _ _ =>
    rw [hkind] at hother
    cases hother
  | variant hsame hds =>
    rw [hkind] at hsame
    obtain rfl := TypeKind.variant.inj hsame
    exact ⟨_, rfl, hds⟩
  | aliasOf _ hwrites =>
    -- A variant stands for nothing else.
    have hshape := hwrites.1
    rw [Graph.expansion, hkind] at hshape
    cases hshape

/-- **What a declared variant captures can be read from its definition.** -/
theorem captures_iff (h : DeclarationOf g w site t d) (closed : g.Closed)
    (hkind : t.kind = .variant cases)
    (hplain : ∀ {id u name}, g.typeDef id = .ok u → u.identifier = .ok name →
      (w id = some name ↔ plain u)) :
    Captures g w d ↔ Clashes g plain SameType t cases := by
  obtain ⟨ds, hbody, hds⟩ := h.exists_cases hkind
  obtain ⟨raw, hraw, hidentifier⟩ := TypeDef.identifier_eq_ok_iff.mp h.name
  constructor
  · rintro ⟨ds', hbody', c, hc, hcarries, hhides⟩
    obtain rfl : ds = ds' := TypeBody.variant.inj (hbody.symm.trans hbody')
    obtain ⟨case, hcase, hof⟩ := exists_of_mem_right hds hc
    refine ⟨case, hcase, hof.isSome_payload ▸ hcarries, ?_⟩
    cases hhides with
    | variant hname => exact .variant hraw (hof.name.trans (hname ▸ hidentifier.symm))
    | @type c' e id u hc' he hid hu hname hwording =>
      obtain ⟨case', hcase', hof'⟩ := exists_of_mem_right hds hc'
      obtain ⟨ref, href, hshape⟩ := hof'.exists_ref he
      obtain ⟨raw', hraw', hidentifier'⟩ := TypeDef.identifier_eq_ok_iff.mp hname
      have hrefers := (closed.mem_names_iff (Graph.hasRef_of_shapeOf hshape) hshape).mp hid
      exact .type hcase' href hrefers hu ((hplain hu hname).mp hwording) hraw'
        (hof.name.trans hidentifier'.symm)
  · rintro ⟨case, hcase, hcarries, hnamesake⟩
    obtain ⟨c, hc, hof⟩ := exists_of_mem_left hds hcase
    refine ⟨ds, hbody, c, hc, hof.isSome_payload ▸ hcarries, ?_⟩
    cases hnamesake with
    | @variant raw' hraw' hsame =>
      obtain rfl : raw = raw' := Option.some.inj (hraw.symm.trans hraw')
      exact .variant (Except.ok.inj (hof.name.symm.trans (hsame.trans hidentifier)))
    | @type case' ref id u raw' hcase' href hrefers hu hplainly hraw' hsame =>
      obtain ⟨c', hc', hof'⟩ := exists_of_mem_left hds hcase'
      obtain ⟨e, he, hshape⟩ := hof'.exists_expr href
      have hname : u.identifier = .ok c.name :=
        TypeDef.identifier_eq_ok_iff.mpr ⟨raw', hraw', hsame.symm.trans hof.name⟩
      have hid := (closed.mem_names_iff (Graph.hasRef_of_shapeOf hshape) hshape).mpr hrefers
      exact .type hc' he hid hu hname ((hplain hu hname).mpr hplainly)

end DeclarationOf

/-- Namesakes are recognised in any way that tells the names of the cases from
those of the types alike. -/
theorem clashes_congr {g : Graph} {plain : TypeDef → Prop} {alike alike' : String → String → Prop}
    {t : TypeDef} {cases : List Case} (halike : ∀ c ∈ cases, ∀ raw,
      (t.name = some raw ∨ ∃ u ∈ g.types, u.name = some raw) →
        (alike c.name raw ↔ alike' c.name raw)) :
    Clashes g plain alike t cases ↔ Clashes g plain alike' t cases := by
  have hmono : ∀ {one other : String → String → Prop}, (∀ c ∈ cases, ∀ raw,
      (t.name = some raw ∨ ∃ u ∈ g.types, u.name = some raw) → one c.name raw → other c.name raw) →
      Clashes g plain one t cases → Clashes g plain other t cases := by
    rintro one other himp ⟨c, hc, hcarries, hnamesake⟩
    refine ⟨c, hc, hcarries, ?_⟩
    cases hnamesake with
    | variant hraw hsame => exact .variant hraw (himp c hc _ (.inl hraw) hsame)
    | type hc' hpayload hrefers hu hplainly hraw hsame =>
      have hsame' := himp c hc _ (.inr ⟨_, Graph.mem_of_typeDef hu, hraw⟩) hsame
      exact .type hc' hpayload hrefers hu hplainly hraw hsame'
  exact ⟨hmono fun c hc raw hraw => (halike c hc raw hraw).mp,
    hmono fun c hc raw hraw => (halike c hc raw hraw).mpr⟩

/-- **Namesakes are recognised by their words.** -/
theorem WitNamed.clashes_iff {g : Graph} {t : TypeDef} {cases : List Case}
    (h : WitNamed g t cases) (plain : TypeDef → Prop) :
    Clashes g plain SameType t cases ↔ Clashes g plain SameWords t cases := by
  refine clashes_congr fun c hc raw hraw => (h.cases c hc).identifierOf_eq_iff ?_ .type
  rcases hraw with hraw | ⟨u, hu, hraw⟩
  · exact h.variant raw hraw
  · exact h.types u hu raw hraw

/-- **A faithful declaration captures exactly what its definition says.** -/
theorem DeclarationOf.capturesExactly {g : Graph} {w : Wording} {site : Site} {t : TypeDef}
    {d : TypeDeclaration} {cases : List Case} {plain : TypeDef → Prop}
    (h : DeclarationOf g w site t d) (closed : g.Closed) (hkind : t.kind = .variant cases)
    (hplain : ∀ {id u name}, g.typeDef id = .ok u → u.identifier = .ok name →
      (w id = some name ↔ plain u)) : CapturesExactly g w plain t cases d where
  declared := h.exists_cases hkind
  captures_iff := h.captures_iff closed hkind hplain
  words_iff hnamed := (h.captures_iff closed hkind hplain).trans (hnamed.clashes_iff plain)

/-! ## Plain names -/

/-- **A reference is the plain name exactly for a type that is called so.** -/
theorem Placement.wording_eq_some_iff {p : Placement} {scope : Option Location} {id : Int}
    {u : TypeDef} {name : String} (hu : p.graph.typeDef id = .ok u)
    (hname : u.identifier = .ok name) :
    p.wording scope id = some name ↔ CalledPlainly p.place scope u := by
  unfold wording
  rw [except_toOption_eq_some]
  unfold referenceText CalledPlainly
  simp only [except_bind_eq_ok, hu, hname, Except.ok.injEq, exists_eq_left']
  cases u.owner with
  | none => simp
  | some owner =>
    simp only [except_bind_eq_ok, except_pure_eq_ok, Option.some.injEq, forall_eq']
    refine exists_congr fun l => and_congr_right fun _ => ?_
    by_cases hhere : some l = scope
    · simp [hhere]
    · simp [hhere, l.memberPath_ne name]

namespace Mapper

open Placement

variable {m : Mapper}

/-- How a mapper refers to types. -/
def wording (m : Mapper) : Wording := fun id =>
  match m.answer (.reference id) with
  | .ok (.text text) => some text
  | _ => none

/-- A mapper whose session is in order refers to types as its places
prescribe. -/
theorem wording_eq (orderly : m.graph.Orderly) (hm : (m.placement orderly).Tidy m.session) :
    m.wording = (m.placement orderly).wording m.scope := by
  funext id
  unfold wording
  rw [answer_reference orderly hm]
  unfold Placement.wording
  cases (m.placement orderly).referenceText m.scope id <;> rfl

/-- A mapper finds owners at their places. -/
theorem follows (m : Mapper) (orderly : m.graph.Orderly) :
    m.renderer.Follows (m.placement orderly) where
  graph := rfl
  place h := (Emission.ofExcept_eq_ok.mp h).1
  grows h := by
    obtain ⟨-, rfl⟩ := Emission.ofExcept_eq_ok.mp h
    exact .refl _
  references h := by
    obtain ⟨-, rfl⟩ := Emission.ofExcept_eq_ok.mp h
    rfl
  instantiations h := by
    obtain ⟨-, rfl⟩ := Emission.ofExcept_eq_ok.mp h
    rfl
  noted _ := trivial
  pending _ _ _ := .inr trivial

/-- **What an emitter declares is faithful**, if its session is in order. -/
theorem declarationOf_of_emitType (orderly : m.graph.Orderly)
    (hm : (m.placement orderly).Tidy m.session) {site : Site} {t : TypeDef} {d : TypeDeclaration}
    {s : Session} (h : m.renderer.emitType site t m.session = .ok d s) :
    DeclarationOf m.graph m.wording site t d := by
  obtain ⟨hs, -, hd⟩ := (m.follows orderly).emits_type site t m.session d s hm.coherent h
  refine hd m.wording ?_
  rw [wording_eq orderly hm]
  exact hs.extends_wording _

/-- What an emitter declares captures what the definition says, if its session is
in order. -/
theorem capturesExactly_of_emitType (orderly : m.graph.Orderly) (closed : m.graph.Closed)
    (hm : (m.placement orderly).Tidy m.session) {site : Site} {t : TypeDef} {cases : List Case}
    {d : TypeDeclaration} {s : Session} (hkind : t.kind = .variant cases)
    (h : m.renderer.emitType site t m.session = .ok d s) :
    CapturesExactly m.graph m.wording (CalledPlainly m.place m.scope) t cases d := by
  refine (declarationOf_of_emitType orderly hm h).capturesExactly closed hkind fun hu hname => ?_
  rw [wording_eq orderly hm]
  exact Placement.wording_eq_some_iff hu hname

end Mapper

/-- **What a declared variant captures can be read from its definition.** This
holds of whatever an emitter declares, in any module, at any site and after any
calls, answered or not; and of all variants in the modules of a run. -/
theorem captures_of_definition {document : Document} {g : Graph}
    (hg : Graph.ofDocument document = .ok g) :
    (∀ place calls site t cases d s, t.kind = .variant cases →
      let m := (Mapper.mk g place none {}).servedAll calls
      m.renderer.emitType site t m.session = .ok d s →
        CapturesExactly g m.wording (CalledPlainly place m.scope) t cases d) ∧
    ∀ o world ms, selectWorld g o = .ok world → generateModules g o = .ok ms →
      ∀ m ∈ ms, ∀ d ∈ m.declarations, ∀ t cases,
        g.typeDef d.id = .ok t → t.kind = .variant cases →
          let a := Assignment.ofOptions g o world
          CapturesExactly g (a.wording m.location) (CalledPlainly a.place (some m.location)) t
            cases d := by
  have orderly := Graph.orderly_of_ofDocument hg
  have closed := Graph.closed_of_ofDocument hg
  constructor
  · intro place calls site t cases d s hkind
    obtain ⟨hgraph, hplace, htidy⟩ :=
      Mapper.tidy_servedAll orderly place calls (Mapper.mk g place none {}) rfl rfl .start
    generalize (Mapper.mk g place none {}).servedAll calls = m at hgraph hplace htidy ⊢
    subst hgraph hplace
    exact Mapper.capturesExactly_of_emitType orderly closed htidy hkind
  · intro o world ms hworld hrun m hm d hd t cases ht hkind a
    obtain ⟨world', s, hworld', hfinished, rfl⟩ := finished_of_generateModules orderly hrun
    obtain rfl : world = world' := Except.ok.inj (hworld.symm.trans hworld')
    obtain ⟨ds, hds⟩ := hfinished.declares_wording hm
    obtain ⟨id, -, t', site, ht', -, hof⟩ :=
      exists_of_mem_right hds.declared (hds.perm.mem_iff.mp hd)
    -- The declaration is for the definition that has its id.
    have hid : d.id = id := hof.id.trans (orderly.typeDef_id ht')
    obtain rfl : t = t' := Except.ok.inj (ht.symm.trans (hid ▸ ht'))
    refine hof.capturesExactly closed hkind fun hu hname => ?_
    rw [← Assignment.placement_wording (a := a) orderly Assignment.NoGrant]
    exact Placement.wording_eq_some_iff hu hname

/-! ## A case that carries itself -/

/-- A world that imports a record `CIRCLE`, and a variant with a case `circle`
that carries such a record. -/
def circleDocument : Document :=
  .object [
    (.text "packages", .list [.object [(.text "name", .string "a:b")]]),
    (.text "types", .list [
      .object [(.text "name", .string "CIRCLE"), (.text "owner", .object [(.text "world", .int 0)]),
        (.text "kind", .object [(.text "record", .object [(.text "fields", .list [])])])],
      .object [(.text "name", .string "shape"), (.text "owner", .object [(.text "world", .int 0)]),
        (.text "kind", .object [(.text "variant", .object [(.text "cases", .list [
          .object [(.text "name", .string "circle"), (.text "type", .int 0)]])])])]]),
    (.text "worlds", .list [.object [(.text "name", .string "w"), (.text "package", .int 0),
      (.text "imports", .object [(.text "CIRCLE", .object [(.text "type", .int 0)]),
        (.text "shape", .object [(.text "type", .int 1)])])]])]

/-- The record of that document. -/
def circleRecord : TypeDef := ⟨0, some "CIRCLE", .record [], some (.world 0), none⟩

/-- The case of the variant. -/
def circleCase : Case := ⟨"circle", some (.defined 0), none⟩

/-- The variant of that document. -/
def circleVariant : TypeDef := ⟨1, some "shape", .variant [circleCase], some (.world 0), none⟩

/-- The world of that document. -/
def circleWorld : World where
  id := 0
  name := "w"
  package := some 0
  imports := [(.text "CIRCLE", .type 0), (.text "shape", .type 1)]
  exports := []
  docs := none

/-- The graph of that document. -/
def circleGraph : Graph where
  packages := [⟨0, ⟨"a", "b", none⟩, [], [], none⟩]
  interfaces := []
  types := [circleRecord, circleVariant]
  worlds := [circleWorld]

/-- The case as it is declared: a class `Circle` with a value of `Circle`. -/
def circleClass : CaseDeclaration := ⟨"Circle", some ⟨.named 0, "Circle"⟩⟩

/-- The variant as it is declared. -/
def circleDeclaration : TypeDeclaration := ⟨1, "Shape", none, .variant [circleClass]⟩

/-- The only module of that graph. -/
def circleModule : Module where
  key := .world .imported
  location := ⟨"componentmodel", "w", ["componentmodel", "w"], "package.scala", .imported⟩
  docs := none
  types := [⟨0, "Circle", none, .record []⟩, circleDeclaration]

/-- Where the declarations are emitted. -/
def circleSite : Site := ⟨.imported, worldIdentity, circleModule.location.path⟩

/-- An emitter that has been told to write the module. -/
def circleMapper : Mapper :=
  (Mapper.mk circleGraph (fun _ => .ok circleModule.location) none {}).servedAll
    [.map (.setScope (some circleModule.location))]

/-- What a run over that graph assigns to modules. -/
def circleAssignment : Assignment := ⟨circleGraph, circleWorld, ⟨["componentmodel"]⟩⟩

/-- The session when the record has been declared. -/
def circleSession : Session where
  claims := [⟨"componentmodel", "exports", "<exports>"⟩, ⟨"componentmodel", "w", "<world w>"⟩,
    ⟨"componentmodel/w/package.scala", "Circle", "CIRCLE"⟩]
  modules := [{ circleModule with types := [⟨0, "Circle", none, .record []⟩] }]

/-- The session when the variant has been declared. -/
def circleDeclared : Session where
  claims := circleSession.claims ++ [⟨"componentmodel/w/package.scala", "Shape", "shape"⟩,
    ⟨"componentmodel/w/package.scala.Shape", "Circle", "circle"⟩]
  references := [((0, some circleModule.location), "Circle")]
  modules := circleSession.modules

/-- The variant is declared by any renderer for that graph that refers to the
record by its plain name. -/
theorem emitType_circle {r : Renderer} (hgraph : r.graph = circleGraph) {s s' : Session}
    (hrun : (do
      let name ← Emission.ofNaming (declare .type "shape" circleSite.scope)
      let case ← Emission.ofNaming (declare .type "circle" (circleSite.memberScope name))
      let text ← r.referenceTo 0
      return ⟨1, name, none, .variant [⟨case, some ⟨.named 0, text⟩⟩]⟩ : Emission TypeDeclaration) s
        = .ok circleDeclaration s') :
    r.emitType circleSite circleVariant s = .ok circleDeclaration s' := by
  have hrender : r.render (.defined 0) = (do
      let text ← r.referenceTo 0
      return ⟨.named 0, text⟩) :=
    Renderer.render_named (t := circleRecord) (by rw [hgraph]; rfl) rfl
  unfold Renderer.emitType
  simp only [circleVariant, circleCase, Renderer.emitVariant, List.mapM_cons, List.mapM_nil,
    hrender]
  simpa using hrun

/-- A run over that graph meets no fault. -/
theorem generateModules_circle : generateModules circleGraph {} = .ok [circleModule] := by
  have hrecord : circleAssignment.generateItem (.imported, .text "CIRCLE", .type 0)
      { claims := [⟨"componentmodel", "exports", "<exports>"⟩] } = .ok () circleSession := rfl
  have hemit : (circleAssignment.renderer circleModule.location).emitType circleSite circleVariant
      circleSession = .ok circleDeclaration circleDeclared := emitType_circle rfl rfl
  have hvariant : circleAssignment.generateItem (.imported, .text "shape", .type 1) circleSession
      = .ok () { circleDeclared with modules := [circleModule] } := by
    refine bind_eq_ok.mpr ⟨circleVariant, _, rfl, bind_eq_ok.mpr ⟨(), _, rfl, ?_⟩⟩
    refine bind_eq_ok.mpr ⟨true, circleSession, rfl, ?_⟩
    rw [if_pos rfl]
    refine bind_eq_ok.mpr ⟨circleModule.location, circleSession, rfl, ?_⟩
    refine bind_eq_ok.mpr ⟨circleVariant, _, rfl, ?_⟩
    exact bind_eq_ok.mpr ⟨circleDeclaration, circleDeclared, hemit, rfl⟩
  have hitems : circleAssignment.items.forM circleAssignment.generateItem
      { claims := [⟨"componentmodel", "exports", "<exports>"⟩] }
        = .ok () { circleDeclared with modules := [circleModule] } :=
    bind_eq_ok.mpr ⟨(), _, hrecord, bind_eq_ok.mpr ⟨(), _, hvariant, rfl⟩⟩
  exact generateModules_eq_ok (s := { circleDeclared with modules := [circleModule] }) rfl rfl
    hitems rfl

/-- The variant is declared by that emitter. -/
theorem emitType_circleMapper :
    ∃ s, circleMapper.renderer.emitType circleSite circleVariant circleMapper.session
      = .ok circleDeclaration s :=
  ⟨_, emitType_circle rfl rfl⟩

/-- The emitter and the run both declare a variant that captures exactly what the
definition says. -/
theorem captures_of_definition_circle :
    Graph.ofDocument circleDocument = .ok circleGraph ∧
      selectWorld circleGraph {} = .ok circleWorld ∧
      generateModules circleGraph {} = .ok [circleModule] ∧
      CapturesExactly circleGraph circleMapper.wording
        (CalledPlainly (fun _ => .ok circleModule.location) circleMapper.scope) circleVariant
        [circleCase] circleDeclaration ∧
      CapturesExactly circleGraph (circleAssignment.wording circleModule.location)
        (CalledPlainly circleAssignment.place (some circleModule.location)) circleVariant
        [circleCase] circleDeclaration := by
  have hdocument : Graph.ofDocument circleDocument = .ok circleGraph := rfl
  have hworld : selectWorld circleGraph {} = .ok circleWorld := rfl
  have hvariant : circleGraph.typeDef circleDeclaration.id = .ok circleVariant := rfl
  obtain ⟨s, hemit⟩ := emitType_circleMapper
  obtain ⟨hemitter, hmodules⟩ := captures_of_definition hdocument
  have hrun := hmodules {} circleWorld [circleModule] hworld generateModules_circle circleModule
    (.head _) circleDeclaration (.tail _ (.head _)) circleVariant [circleCase] hvariant rfl
  refine ⟨hdocument, hworld, generateModules_circle, ?_, hrun⟩
  exact hemitter (fun _ => .ok circleModule.location)
    [.map (.setScope (some circleModule.location))] circleSite circleVariant [circleCase]
    circleDeclaration s rfl hemit

/-- **A variant may capture the name of what a case of it carries.** -/
theorem captures_circle : Graph.ofDocument circleDocument = .ok circleGraph ∧
    (∃ s, circleMapper.renderer.emitType circleSite circleVariant circleMapper.session
      = .ok circleDeclaration s) ∧
    Captures circleGraph circleMapper.wording circleDeclaration ∧
    generateModules circleGraph {} = .ok [circleModule] ∧
    circleDeclaration ∈ circleModule.declarations := by
  refine ⟨rfl, emitType_circleMapper, ?_, generateModules_circle, .tail _ (.head _)⟩
  refine ⟨[circleClass], rfl, circleClass, .head _, rfl, ?_⟩
  exact .type (e := ⟨.named 0, "Circle"⟩) (u := circleRecord) (.head _) rfl (.head _) rfl rfl rfl

end ComponentBindings
