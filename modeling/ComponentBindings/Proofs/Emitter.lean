import ComponentBindings.Emit
import ComponentBindings.Proofs.Holders
import ComponentBindings.Proofs.Mapper

/-!
# What an emitter keeps in order

An emitter declares types and functions with the help of a mapper and of a
table of names, and all three share one session. It is asked for one
declaration after another, in any module and at any site, with questions to
the mapper and to the table in between, and some of what it is asked for ends
in a fault half-way.

Whatever it is, the tables of the mapper stay in order
(`Mapper.tidy_servedAll`). Declaring makes claims, and these are no concern of
the mapper; all else that is done is rendering, which keeps its tables in order
when it fails as well (`Placement.Steady`).
-/

namespace ComponentBindings

namespace Placement

/-- **A computation that keeps a session in order**, whether it succeeds or
fails. -/
structure Keeps {α : Type} (p : Placement) (x : Emission α) : Prop where
  /-- A success leaves the session in order. -/
  ok : ∀ {s a s'}, p.Tidy s → x s = .ok a s' → p.Tidy s'
  /-- A fault does so, too. -/
  error : ∀ {s fault s'}, p.Tidy s → x s = .error fault s' → p.Tidy s'

variable {p : Placement} {scope : Option Location}

namespace Keeps

variable {α β : Type} {x : Emission α}

/-- What is steady keeps the session in order. -/
theorem ofSteady (h : p.Steady x) : p.Keeps x := by
  obtain ⟨expected, hexpected⟩ := h
  constructor
  · intro s a s' hs hrun
    obtain ⟨s'', hrun', hs''⟩ := hexpected s hs
    cases expected with
    | ok b =>
      rw [hrun] at hrun'
      cases hrun'
      exact hs''
    | error fault =>
      rw [hrun] at hrun'
      cases hrun'
  · intro s fault s' hs hrun
    obtain ⟨s'', hrun', hs''⟩ := hexpected s hs
    cases expected with
    | ok b =>
      rw [hrun] at hrun'
      cases hrun'
    | error fault' =>
      rw [hrun] at hrun'
      cases hrun'
      exact hs''

/-- What needs no session keeps it in order. -/
protected theorem ofExcept {x : Except Fault α} : p.Keeps (Emission.ofExcept x) :=
  ofSteady (steady_ofExcept x)

/-- To return a value keeps the session in order. -/
protected theorem pure (a : α) : p.Keeps (pure a : Emission α) := ofSteady (steady_pure a)

/-- To throw a fault keeps the session in order. -/
protected theorem throw {fault : Fault} : p.Keeps (throw fault : Emission α) where
  ok _ hrun := absurd hrun throw_ne_ok
  error hs hrun := by
    obtain ⟨-, rfl⟩ := throw_eq_error.mp hrun
    exact hs

/-- Nothing comes after a fault. -/
protected theorem throw_bind {fault : Fault} {f : α → Emission β} :
    p.Keeps ((throw fault : Emission α) >>= f) where
  ok _ hrun := by
    obtain ⟨_, _, hthrow, -⟩ := bind_eq_ok.mp hrun
    exact absurd hthrow throw_ne_ok
  error hs hrun := by
    rcases bind_eq_error.mp hrun with hthrow | ⟨_, _, hthrow, -⟩
    · exact Keeps.throw.error hs hthrow
    · exact absurd hthrow throw_ne_ok

/-- One step after another. -/
protected theorem bind (hx : p.Keeps x) {f : α → Emission β} (hf : ∀ a, p.Keeps (f a)) :
    p.Keeps (x >>= f) where
  ok hs hrun := by
    obtain ⟨a, s', hfirst, hrest⟩ := bind_eq_ok.mp hrun
    exact (hf a).ok (hx.ok hs hfirst) hrest
  error hs hrun := by
    rcases bind_eq_error.mp hrun with hfirst | ⟨a, s', hfirst, hrest⟩
    · exact hx.error hs hfirst
    · exact (hf a).error (hx.ok hs hfirst) hrest

/-- A result is mapped. -/
protected theorem map (hx : p.Keeps x) (f : α → β) : p.Keeps (f <$> x) where
  ok hs hrun := by
    obtain ⟨a, hrun, -⟩ := map_eq_ok.mp hrun
    exact hx.ok hs hrun
  error hs hrun := hx.error hs (map_eq_error.mp hrun)

/-- To keep the session in order is kept by chains. -/
theorem keptByChains : KeptByChains fun (α : Type) (x : Emission α) => p.Keeps x where
  pure := .pure
  bind hx hf := hx.bind hf

/-- A list is walked item by item. -/
protected theorem mapM {f : α → Emission β} (hf : ∀ a, p.Keeps (f a)) (xs : List α) :
    p.Keeps (xs.mapM f) :=
  keptByChains.mapM fun a _ => hf a

/-- A list is sifted item by item. -/
protected theorem filterMapM {f : α → Emission (Option β)} (hf : ∀ a, p.Keeps (f a))
    (xs : List α) : p.Keeps (xs.filterMapM f) :=
  keptByChains.filterMapM fun a _ => hf a

/-- **Claims are no concern of the tables.** -/
theorem ofNaming {x : Naming α} (hx : AddsClaims x) : p.Keeps (Emission.ofNaming x) := by
  have htidy : ∀ {s : Session} {claims}, p.Tidy s → s.claims <+: claims →
      p.Tidy { s with claims := claims } := by
    intro s claims hs hmore
    exact ⟨hs.coherent.of_tables (.ofClaims hmore) rfl rfl fun _ => .inl, hs.filed⟩
  constructor
  · intro s a s' hs hrun
    obtain ⟨claims, hok, rfl⟩ := Emission.ofNaming_eq_ok.mp hrun
    have hmore := hx s.claims
    rw [claimsAfter_of_ok hok] at hmore
    exact htidy hs hmore
  · intro s fault s' hs hrun
    unfold Emission.ofNaming at hrun
    have hmore := hx s.claims
    unfold claimsAfter at hmore
    split at hrun
    · cases hrun
    · next herror =>
      rw [herror] at hmore
      cases hrun
      exact htidy hs hmore

/-- A declared name keeps the session in order. -/
protected theorem declare {c : Convention} {raw naming : String} :
    p.Keeps (Emission.ofNaming (declare c raw naming)) := ofNaming .declare

/-- A claim keeps the session in order. -/
protected theorem claim {naming identifier raw : String} :
    p.Keeps (Emission.ofNaming (claim naming identifier raw)) := ofNaming .claim

end Keeps

/-! ## Declarations -/

section Declarations

variable (hnoted : ∀ o s, p.noted o s)

include hnoted

/-- Rendering keeps the session in order. -/
theorem keeps_render (ref : TypeRef) : p.Keeps ((p.renderer scope).render ref) :=
  .ofSteady (steady_render hnoted ref)

/-- Members keep the session in order. -/
theorem keeps_member (naming raw : String) (type : TypeRef) :
    p.Keeps ((p.renderer scope).member naming raw type) :=
  Keeps.declare.bind fun _ => (keeps_render hnoted type).bind fun _ => .pure _

/-- Parameters keep the session in order. -/
theorem keeps_params (naming : String) (ps : List Param) :
    p.Keeps ((p.renderer scope).params naming ps) := by
  unfold Renderer.params
  refine Keeps.mapM (fun param => ?_) ps
  exact keeps_member hnoted naming param.name param.type

/-- Signatures keep the session in order. -/
theorem keeps_signature (naming : String) (f : Function) (ps : List Param) :
    p.Keeps ((p.renderer scope).signature naming f ps) :=
  Keeps.declare.bind fun _ => (keeps_params hnoted _ ps).bind fun _ =>
    (Keeps.ofSteady (steady_renderResults hnoted f.results)).bind fun _ => .pure _

/-- Variants keep the session in order. -/
theorem keeps_emitVariant (naming : String) (cases : List Case) :
    p.Keeps ((p.renderer scope).emitVariant naming cases) := by
  refine (Keeps.mapM (fun c => Keeps.declare.bind fun name => ?_) cases).map _
  cases c.payload with
  | none => exact .pure _
  | some payload => exact (keeps_render hnoted payload).bind fun _ => .pure _

/-- The methods of a resource keep the session in order. -/
theorem keeps_emitMethods (naming : String) (functions : List Function) :
    p.Keeps ((p.renderer scope).emitMethods naming functions) := by
  refine .filterMapM (fun f => ?_) functions
  cases f.attachment with
  | method _ => exact (keeps_signature hnoted naming f _).map some
  | freestanding | static _ | constructor _ => exact .pure none

/-- The companion of a resource keeps the session in order. -/
theorem keeps_emitCompanion (naming : String) (functions : List Function) :
    p.Keeps ((p.renderer scope).emitCompanion naming functions) := by
  refine .filterMapM (fun entry => ?_) functions.zipIdx
  obtain ⟨f, position⟩ := entry
  cases hattachment : f.attachment with
  | constructor _ =>
    simp only [hattachment]
    exact Keeps.claim.bind fun _ => (keeps_params hnoted _ f.params).bind fun _ => .pure _
  | static _ =>
    simp only [hattachment]
    exact (keeps_signature hnoted naming f f.params).bind fun _ => .pure _
  | freestanding | method _ =>
    simp only [hattachment]
    exact .pure none

/-- A resource keeps the session in order. -/
theorem keeps_emitResource (site : Site) (t : TypeDef) :
    p.Keeps ((p.renderer scope).emitResource site t) := by
  unfold Renderer.emitResource
  by_cases hdirection : site.direction = .exported
  · rw [if_pos hdirection]
    exact .throw_bind
  rw [if_neg hdirection]
  cases t.name with
  | none => exact .throw
  | some raw =>
    exact Keeps.declare.bind fun _ => Keeps.claim.bind fun _ => Keeps.ofExcept.bind fun _ =>
      Keeps.ofExcept.bind fun _ => (keeps_emitMethods hnoted _ _).bind fun _ =>
        (keeps_emitCompanion hnoted _ _).bind fun _ => .pure _

/-- **A declared type keeps the session in order.** -/
theorem keeps_emitType (site : Site) (t : TypeDef) :
    p.Keeps ((p.renderer scope).emitType site t) := by
  have hdeclared : ∀ {raw : String} {body : String → Emission TypeBody},
      (∀ name, p.Keeps (body name)) → p.Keeps (do
        let name ← Emission.ofNaming (declare .type raw site.scope)
        return { id := t.id, name, docs := t.docs, body := ← body name : TypeDeclaration }) :=
    fun hbody => Keeps.declare.bind fun name => (hbody name).bind fun _ => .pure _
  unfold Renderer.emitType
  cases t.name with
  | none => exact .throw
  | some raw =>
    simp only
    cases t.kind with
    | record fields =>
      refine hdeclared fun name => (Keeps.mapM (fun f => ?_) fields).map _
      exact keeps_member hnoted _ f.name f.type
    | variant cases => exact hdeclared fun _ => keeps_emitVariant hnoted _ cases
    | enumeration labels =>
      refine hdeclared fun name => (Keeps.mapM (fun l => ?_) labels).map _
      exact Keeps.declare.bind fun _ => .pure _
    | flags names =>
      refine Keeps.ofExcept.bind fun storage => hdeclared fun name => Keeps.claim.bind fun _ =>
        Keeps.claim.bind fun _ => (Keeps.mapM (fun flag => ?_) names).map _
      exact Keeps.declare
    | resource => exact keeps_emitResource hnoted site t
    | aliasOf _ | list _ | option _ | result _ _ | tuple _ | handle _ _ =>
      exact hdeclared fun _ => (Keeps.ofSteady (steady_expand hnoted t)).map _
    | future _ | stream _ => exact .throw

/-- **A declared function keeps the session in order.** -/
theorem keeps_emitFunction (site : Site) (f : Function) :
    p.Keeps ((p.renderer scope).emitFunction site f) :=
  (keeps_signature hnoted site.scope f f.params).bind fun _ =>
    Keeps.ofExcept.bind fun _ => .pure _

end Declarations

end Placement

/-! ## Calls -/

/-- **What an emitter is asked for.** -/
inductive EmitterCall where
  /-- A question to the mapper. -/
  | map (request : Request)
  /-- A question to the table of names. -/
  | name (call : NamingCall)
  /-- The declaration of a type. -/
  | type (site : Site) (t : TypeDef)
  /-- The declaration of a resource. -/
  | resource (site : Site) (t : TypeDef)
  /-- The declaration of a function. -/
  | function (site : Site) (f : Function)

namespace Mapper

open Placement

/-- What is done for a call, with no regard to the answer. -/
def serve (m : Mapper) : EmitterCall → Emission Unit
  | .map request => (fun _ => ()) <$> m.perform request
  | .name call => (fun _ => ()) <$> Emission.ofNaming (call.perform reservedWords)
  | .type site t => (fun _ => ()) <$> m.renderer.emitType site t
  | .resource site t => (fun _ => ()) <$> m.renderer.emitResource site t
  | .function site f => (fun _ => ()) <$> m.renderer.emitFunction site f

/-- The mapper after a call, which keeps what was done before a fault. -/
def served (m : Mapper) (call : EmitterCall) : Mapper where
  graph := m.graph
  place := m.place
  scope := match call with
    | .map request => m.scopeAfter request
    | _ => m.scope
  session := match m.serve call m.session with
    | .ok _ s => s
    | .error _ s => s

/-- The mapper after several calls. -/
def servedAll (m : Mapper) (calls : List EmitterCall) : Mapper := calls.foldl served m

/-- **Every call keeps the session in order.** -/
theorem keeps_serve (m : Mapper) (orderly : m.graph.Orderly) (call : EmitterCall) :
    (m.placement orderly).Keeps (m.serve call) := by
  have hnoted : ∀ o s, (m.placement orderly).noted o s := fun _ _ => trivial
  cases call with
  | map request => exact (Keeps.ofSteady (m.steady_perform orderly request)).map _
  | name call => exact (Keeps.ofNaming (NamingCall.addsClaims_perform call)).map _
  | type site t => exact (keeps_emitType hnoted site t).map _
  | resource site t => exact (keeps_emitResource hnoted site t).map _
  | function site f => exact (keeps_emitFunction hnoted site f).map _

/-- **Calls leave the session in order**, and graph and places alone. -/
theorem tidy_servedAll {g : Graph} (orderly : g.Orderly)
    (place : TypeOwner → Except Fault Location) (calls : List EmitterCall) (m : Mapper)
    (hgraph : m.graph = g) (hplace : m.place = place)
    (hm : (Placement.ofPlaces g orderly place).Tidy m.session) :
    (m.servedAll calls).graph = g ∧ (m.servedAll calls).place = place ∧
      (Placement.ofPlaces g orderly place).Tidy (m.servedAll calls).session := by
  induction calls generalizing m with
  | nil => exact ⟨hgraph, hplace, hm⟩
  | cons call calls ih =>
    subst hgraph hplace
    refine ih (m.served call) rfl rfl ?_
    have hkeeps := m.keeps_serve orderly call
    unfold served
    cases hrun : m.serve call m.session with
    | ok _ s => exact hkeeps.ok hm hrun
    | error fault s => exact hkeeps.error hm hrun

end Mapper

end ComponentBindings
