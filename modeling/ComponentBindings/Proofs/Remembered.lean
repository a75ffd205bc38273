import ComponentBindings.Proofs.Claims
import ComponentBindings.Proofs.Decoded
import ComponentBindings.Proofs.Spelling
import ComponentBindings.TypeExpr.Render

/-!
# What a renderer remembers

A renderer never computes a text twice: references are kept by the type and
the module they stand in, composites by their shape and, where it matters,
the module. What keeps these tables honest is that the module of an owner is
the same whenever it is asked for. It is not a function of the owner on the
face of it – asking makes claims, and notes interfaces – but where it
succeeds it always gives the same location, and `Renderer.Follows` says so
with the function written out as a `Placement`.

Under a placement a session is **coherent** (`Placement.Coherent`) when every
reference it remembers is the one that the placement prescribes, and every
composite it remembers is spelled with references it remembers. The second
half is stronger than the composite being right: who finds a composite in the
table has all its references on record although it made none. That is what
lets an owner be traced from a text to the module that declares it, however
long ago the text was built.

`Placement.Yields` is the rule of reasoning for everything that renders types:
coherent sessions stay coherent, they grow, and the result is right under
everything that the session leaves open by then. For a text that is every
wording that says what the session has on record (`Placement.Emits`), for a
name all claims that the session may come to (`Placement.Grants`). Since later
sessions leave less open, nothing has to be carried forward by hand.
-/

namespace ComponentBindings

/-- How named types have been referred to in a module so far. -/
def Session.wording (s : Session) (scope : Option Location) : Wording :=
  fun id => s.references.lookup (id, scope)

/-- **A session that has grown knows more references.** -/
theorem Session.Grows.extends {s s' : Session} (h : s.Grows s') (scope : Option Location) :
    (s'.wording scope).Extends (s.wording scope) := by
  intro id text hid
  obtain ⟨more, hmore⟩ := h.references
  unfold Session.wording at hid ⊢
  rw [← hmore, List.lookup_append, hid]
  rfl

/-- **Where owners declare their types**: a location for every owner that has
one, what it takes for the owner to have been asked for, and the interfaces
that may have to wait for a module because of that. -/
structure Placement where
  /-- The graph. -/
  graph : Graph
  /-- The entries of the graph know their positions. -/
  orderly : graph.Orderly
  /-- The location of the module that declares the types of an owner. -/
  place : TypeOwner → Except Fault Location
  /-- Whether a session has taken note that an owner was asked for. -/
  noted : TypeOwner → Session → Prop
  /-- The note is kept while the session grows. -/
  noted_mono : ∀ {o s s'}, s.Grows s' → noted o s → noted o s'
  /-- Which interfaces are noted to be generated later. -/
  waits : Int → Prop

/-- A type has the identifier of its name. -/
theorem TypeDef.identifier_eq_ok_iff {t : TypeDef} {name : String} :
    t.identifier = .ok name ↔ ∃ raw, t.name = some raw ∧ identifierOf .type raw = .ok name := by
  unfold identifier
  cases t.name <;> simp

/-- How a placement refers to a named type from a module: plainly where the
type has no owner or is declared in that very place, and in full elsewhere. -/
def Placement.referenceText (p : Placement) (scope : Option Location) (id : Int) :
    Except Fault String := do
  let t ← p.graph.typeDef id
  let name ← t.identifier
  match t.owner with
  | none => return name
  | some owner =>
    let location ← p.place owner
    return if some location = scope then name else location.memberPath name

/-- The name of a type is not its full name. -/
theorem Location.memberPath_ne (l : Location) (name : String) : l.memberPath name ≠ name := by
  intro h
  have hlength := congrArg String.length h
  unfold memberPath at hlength
  split at hlength <;> simp only [String.length_append] at hlength
  · have hdot : ".".length = 1 := rfl
    omega
  · have hdot : ".".length = 1 := rfl
    omega

/-- The references of a placement from a module, where there are any. -/
def Placement.wording (p : Placement) (scope : Option Location) : Wording :=
  fun id => (p.referenceText scope id).toOption

/-- **A renderer that finds owners where a placement has them.** Looking for
an owner may claim identifiers and take notes, and nothing else. -/
structure Renderer.Follows (r : Renderer) (p : Placement) : Prop where
  /-- The renderer is for the graph of the placement. -/
  graph : r.graph = p.graph
  /-- An owner that is found is found at its place. -/
  place : ∀ {o s loc s'}, r.locate o s = .ok loc s' → p.place o = .ok loc
  /-- The session grows. -/
  grows : ∀ {o s loc s'}, r.locate o s = .ok loc s' → s.Grows s'
  /-- No reference is added. -/
  references : ∀ {o s loc s'}, r.locate o s = .ok loc s' → s'.references = s.references
  /-- No composite is added. -/
  instantiations : ∀ {o s loc s'}, r.locate o s = .ok loc s' →
    s'.instantiations = s.instantiations
  /-- The owner has been asked for. -/
  noted : ∀ {o s loc s'}, r.locate o s = .ok loc s' → p.noted o s'
  /-- What is noted waits. -/
  pending : ∀ {o s loc s'}, r.locate o s = .ok loc s' →
    ∀ j ∈ s'.pending, j ∈ s.pending ∨ p.waits j

namespace Placement

variable {p : Placement} {s s' : Session} {scope : Option Location}

/-- Where a composite is kept: under the module it stands in if its text
depends on that. -/
def tableKey (scope : Option Location) (shape : Shape) : Option Location × Shape :=
  (if shape.isScoped then scope else none, shape)

/-- **A session whose tables are right.** -/
structure Coherent (p : Placement) (s : Session) : Prop where
  /-- A reference that is remembered is the one of the placement. -/
  references : ∀ {scope id text}, s.wording scope id = some text →
    p.referenceText scope id = .ok text
  /-- The owner of a type that has been referred to was asked for. -/
  noted : ∀ {scope id text t o}, s.wording scope id = some text →
    p.graph.typeDef id = .ok t → t.owner = some o → p.noted o s
  /-- A composite that is remembered is spelled with what is remembered. -/
  instantiations : ∀ {scope shape text},
    s.instantiations.lookup (tableKey scope shape) = some text →
      shape.spell (s.wording scope) = some text
  /-- Only interfaces that may have to wait are noted. -/
  pending : ∀ j ∈ s.pending, p.waits j

namespace Coherent

/-- **A run starts coherent**: nothing is remembered. -/
theorem start : p.Coherent {} where
  references h := by cases h
  noted h := by cases h
  instantiations h := by cases h
  pending _ h := absurd h List.not_mem_nil

/-- What a coherent session remembers, the placement says. -/
theorem extends_wording (h : p.Coherent s) (scope : Option Location) :
    (p.wording scope).Extends (s.wording scope) := by
  intro id text hid
  unfold Placement.wording
  rw [h.references hid]
  rfl

/-- **Tables that are right stay right** while they are left alone, under any
placement that refers to types alike, as long as whatever has been asked for
stays so. -/
theorem transfer {p' : Placement} (h : p.Coherent s) (htext : p'.referenceText = p.referenceText)
    (hgraph : p'.graph = p.graph) (href : s'.references = s.references)
    (hinst : s'.instantiations = s.instantiations) (hpending : ∀ j ∈ s'.pending, p'.waits j)
    (hnoted : ∀ o, p.noted o s → p'.noted o s') : p'.Coherent s' := by
  have hword : s'.wording = s.wording := by
    unfold Session.wording
    rw [href]
  refine ⟨?_, ?_, ?_, hpending⟩
  · intro scope id text hid
    rw [hword] at hid
    rw [htext]
    exact h.references hid
  · intro scope id text t o hid ht ho
    rw [hword] at hid
    rw [hgraph] at ht
    exact hnoted o (h.noted hid ht ho)
  · intro scope shape text hshape
    rw [hinst] at hshape
    rw [hword]
    exact h.instantiations hshape

/-- A session stays coherent when it grows by claims and notes only. -/
theorem of_tables (h : p.Coherent s) (hg : s.Grows s') (href : s'.references = s.references)
    (hinst : s'.instantiations = s.instantiations)
    (hpending : ∀ j ∈ s'.pending, j ∈ s.pending ∨ p.waits j) : p.Coherent s' :=
  h.transfer rfl rfl href hinst (fun j hj => (hpending j hj).elim (h.pending j) id)
    fun _ => p.noted_mono hg

/-- A session stays coherent when the right reference is remembered. -/
theorem remember_reference (h : p.Coherent s) {id : Int} {text : String} {t : TypeDef}
    (ht : p.graph.typeDef id = .ok t) (htext : p.referenceText scope id = .ok text)
    (hnoted : ∀ o, t.owner = some o → p.noted o s) :
    p.Coherent { s with references := s.references ++ [((id, scope), text)] } := by
  have hgrows : s.Grows { s with references := s.references ++ [((id, scope), text)] } :=
    .ofReference _
  -- What is known afterwards was known before, or is the new reference.
  have hword : ∀ {scope' id' text'}, ({ s with references := s.references ++
      [((id, scope), text)] } : Session).wording scope' id' = some text' →
      s.wording scope' id' = some text' ∨ (id' = id ∧ scope' = scope ∧ text' = text) := by
    intro scope' id' text' hid
    unfold Session.wording at hid ⊢
    rw [List.lookup_append] at hid
    cases hold : s.references.lookup (id', scope') with
    | some old => simp_all
    | none =>
      rw [hold, Option.none_or, List.lookup_cons] at hid
      split at hid
      · next heq =>
        obtain ⟨rfl, rfl⟩ := Prod.mk.inj (eq_of_beq heq)
        exact .inr ⟨rfl, rfl, (Option.some.inj hid).symm⟩
      · cases hid
  refine ⟨?_, ?_, ?_, h.pending⟩
  · intro scope' id' text' hid
    rcases hword hid with hold | ⟨rfl, rfl, rfl⟩
    · exact h.references hold
    · exact htext
  · intro scope' id' text' t' o hid ht' ho
    rcases hword hid with hold | ⟨rfl, rfl, rfl⟩
    · exact p.noted_mono hgrows (h.noted hold ht' ho)
    · obtain rfl : t = t' := by rw [ht] at ht'; exact Except.ok.inj ht'
      exact p.noted_mono hgrows (hnoted o ho)
  · intro scope' shape text' hshape
    exact Shape.spell_mono (hgrows.extends scope') (h.instantiations hshape)

/-- A session stays coherent when a composite is remembered that is spelled
with what is remembered. -/
theorem remember_instantiation (h : p.Coherent s) {shape : Shape} {text : String}
    (htext : shape.spell (s.wording scope) = some text) :
    p.Coherent { s with instantiations := s.instantiations ++ [(tableKey scope shape, text)] } := by
  have hgrows : s.Grows
      { s with instantiations := s.instantiations ++ [(tableKey scope shape, text)] } :=
    .ofInstantiations _
  refine ⟨h.references, fun hid ht ho => p.noted_mono hgrows (h.noted hid ht ho), ?_,
    h.pending⟩
  intro scope' shape' text' hshape
  rw [List.lookup_append] at hshape
  cases hold : s.instantiations.lookup (tableKey scope' shape') with
  | some old =>
    rw [hold] at hshape
    obtain rfl : old = text' := Option.some.inj hshape
    exact h.instantiations hold
  | none =>
    rw [hold, Option.none_or, List.lookup_cons] at hshape
    split at hshape
    · next heq =>
      obtain ⟨hscope, rfl⟩ := Prod.mk.inj (eq_of_beq heq)
      obtain rfl := Option.some.inj hshape
      show shape'.spell (s.wording scope') = some text
      -- The key leaves the module out where the text does not depend on it.
      cases hscoped : shape'.isScoped with
      | true =>
        obtain rfl : scope' = scope := by simpa [hscoped] using hscope
        exact htext
      | false => rwa [Shape.spell_of_not_isScoped hscoped _ (s.wording scope)]
    · cases hshape

end Coherent

/-! ## Reasoning about what is emitted -/

/-- **A view of a session**: what can be known of it, and goes on to be known
while it grows. What fits a session that has grown fits what it grew from. -/
structure View (κ : Type) where
  /-- What a session leaves open. -/
  fits : Session → κ → Prop
  /-- A session that has grown leaves less open. -/
  of_grows : ∀ {s s' k}, s.Grows s' → fits s' k → fits s k

/-- The wordings that say what a session has on record in a module. -/
def View.wording (scope : Option Location) : View Wording where
  fits s w := w.Extends (s.wording scope)
  of_grows hgrows hw := hw.trans (hgrows.extends scope)

/-- The claims that a session may come to. -/
def View.claims : View Claims where
  fits s claims := s.claims <+: claims
  of_grows hgrows hmore := hgrows.claims.trans hmore

/-- **What a computation yields**, under a placement and in a view: what comes
out is right under everything that fits the session at the end. -/
def Yields {κ α : Type} (p : Placement) (v : View κ) (x : Emission α) (Q : κ → α → Prop) : Prop :=
  ∀ s a s', p.Coherent s → x s = .ok a s' →
    p.Coherent s' ∧ s.Grows s' ∧ ∀ k, v.fits s' k → Q k a

/-- **What an emission comes to**, under a placement and in a module. -/
abbrev Emits {α : Type} (p : Placement) (scope : Option Location) (x : Emission α)
    (Q : Wording → α → Prop) : Prop :=
  p.Yields (.wording scope) x Q

/-- **What an emission is granted**, under a placement: claims that are held
from then on. -/
abbrev Grants {α : Type} (p : Placement) (x : Emission α) (Q : Claims → α → Prop) : Prop :=
  p.Yields .claims x Q

namespace Yields

variable {κ κ' α β : Type} {v : View κ} {x : Emission α} {Q : κ → α → Prop}

/-- What is yielded may be said in weaker terms. -/
theorem imp (hx : p.Yields v x Q) {Q' : κ → α → Prop} (h : ∀ k a, Q k a → Q' k a) :
    p.Yields v x Q' := by
  intro s a s' hs hrun
  obtain ⟨hs', hgrows, ha⟩ := hx s a s' hs hrun
  exact ⟨hs', hgrows, fun k hk => h k a (ha k hk)⟩

/-- What is right in one view may be of no interest in another. -/
theorem forget (hx : p.Yields v x Q) {v' : View κ'} : p.Yields v' x fun _ _ => True := by
  intro s a s' hs hrun
  obtain ⟨hs', hgrows, -⟩ := hx s a s' hs hrun
  exact ⟨hs', hgrows, fun _ _ => trivial⟩

/-- A value is returned. -/
theorem pure {a : α} (h : ∀ k, Q k a) : p.Yields v (Pure.pure a) Q := by
  intro s a' s' hs hrun
  obtain ⟨rfl, rfl⟩ := pure_eq_ok.mp hrun
  exact ⟨hs, .refl s, fun k _ => h k⟩

/-- **One step after another.** What the first yielded stays right in the view
that the second ends with. -/
theorem bind (hx : p.Yields v x Q) {f : α → Emission β} {Q' : κ → β → Prop}
    (hf : ∀ a, p.Yields v (f a) fun k b => Q k a → Q' k b) : p.Yields v (x >>= f) Q' := by
  intro s b s'' hs hrun
  obtain ⟨a, s', hrunx, hrunf⟩ := bind_eq_ok.mp hrun
  obtain ⟨hs', hgrows, ha⟩ := hx s a s' hs hrunx
  obtain ⟨hs'', hgrows', hb⟩ := hf a s' b s'' hs' hrunf
  exact ⟨hs'', hgrows.trans hgrows', fun k hk => hb k hk (ha k (v.of_grows hgrows' hk))⟩

/-- A result is mapped. -/
theorem map (f : α → β) {Q' : κ → β → Prop} (hx : p.Yields v x fun k a => Q' k (f a)) :
    p.Yields v (f <$> x) Q' := by
  intro s b s' hs hrun
  obtain ⟨a, hrunx, rfl⟩ := map_eq_ok.mp hrun
  exact hx s a s' hs hrunx

/-- A fault is thrown. -/
theorem throw {e : Fault} : p.Yields v (MonadExcept.throw e : Emission α) Q :=
  fun _ _ _ _ hrun => absurd hrun throw_ne_ok

/-- A fault ends a chain. -/
theorem throw_bind {e : Fault} {f : α → Emission β} {Q' : κ → β → Prop} :
    p.Yields v ((MonadExcept.throw e : Emission α) >>= f) Q' := by
  intro s b s' _ hrun
  obtain ⟨_, _, hthrow, -⟩ := bind_eq_ok.mp hrun
  exact absurd hthrow throw_ne_ok

/-- A result that needs no session. -/
theorem ofExcept {x : Except Fault α} :
    p.Yields v (Emission.ofExcept x) fun _ a => x = .ok a := by
  intro s a s' hs hrun
  obtain ⟨hx, rfl⟩ := Emission.ofExcept_eq_ok.mp hrun
  exact ⟨hs, .refl s, fun _ _ => hx⟩

/-- A result that takes claims only. -/
theorem ofNaming {x : Naming α} {P : α → Prop}
    (h : ∀ claims a claims', x claims = .ok a claims' → claims <+: claims' ∧ P a) :
    p.Yields v (Emission.ofNaming x) fun _ a => P a := by
  intro s a s' hs hrun
  obtain ⟨claims, hx, rfl⟩ := Emission.ofNaming_eq_ok.mp hrun
  obtain ⟨hbefore, ha⟩ := h _ _ _ hx
  have hgrows := Session.Grows.ofClaims hbefore
  exact ⟨hs.of_tables hgrows rfl rfl fun _ => .inl, hgrows, fun _ _ => ha⟩

/-- A claim is made. -/
theorem claim {scopeText identifier raw : String} :
    p.Yields v (Emission.ofNaming (ComponentBindings.claim scopeText identifier raw))
      fun _ _ => True :=
  ofNaming (P := fun _ => True) fun _ _ _ h =>
    ⟨Claims.isPrefix_of_register (claim_eq_ok.mp h), trivial⟩

/-- A name is declared. -/
theorem declare {c : Convention} {raw scopeText : String} :
    p.Yields v (Emission.ofNaming (ComponentBindings.declare c raw scopeText))
      fun _ name => identifierOf c raw = .ok name :=
  ofNaming fun _ _ _ h =>
    have ⟨hname, hclaim⟩ := declare_eq_ok.mp h
    ⟨Claims.isPrefix_of_register hclaim, hname⟩

/-- **A list is walked item by item.** -/
theorem mapM {f : α → Emission β} {R : κ → α → β → Prop} (xs : List α)
    (hf : ∀ x ∈ xs, p.Yields v (f x) fun k y => R k x y) :
    p.Yields v (xs.mapM f) fun k ys => List.Forall₂ (R k) xs ys := by
  induction xs with
  | nil => exact Yields.pure fun _ => .nil
  | cons x xs ih =>
    rw [List.mapM_cons]
    have hhead := hf x List.mem_cons_self
    have htail := ih fun y hy => hf y (List.mem_cons_of_mem x hy)
    exact hhead.bind fun y => htail.bind fun ys => Yields.pure fun _ hys hy => .cons hy hys

/-- **A list is walked item by item**, and some items come to nothing. -/
theorem filterMapM {f : α → Emission (Option β)} {R : κ → α → Option β → Prop} (xs : List α)
    (hf : ∀ x ∈ xs, p.Yields v (f x) fun k y => R k x y) :
    p.Yields v (xs.filterMapM f) fun k ys =>
      ∃ found, List.Forall₂ (R k) xs found ∧ ys = found.reduceOption := by
  induction xs with
  | nil => exact Yields.pure fun _ => ⟨[], .nil, rfl⟩
  | cons x xs ih =>
    rw [List.filterMapM_cons]
    have hhead := hf x List.mem_cons_self
    have htail := ih fun y hy => hf y (List.mem_cons_of_mem x hy)
    refine hhead.bind fun y => ?_
    cases y with
    | none =>
      exact htail.imp fun k ys hys hy => by
        obtain ⟨found, hall, rfl⟩ := hys
        exact ⟨none :: found, .cons hy hall, rfl⟩
    | some y =>
      exact htail.bind fun ys => Yields.pure fun k hys hy => by
        obtain ⟨found, hall, rfl⟩ := hys
        exact ⟨some y :: found, .cons hy hall, rfl⟩

end Yields

end Placement

end ComponentBindings
