import ComponentBindings.Proofs.Rendering
import Mathlib.Data.List.Nodup

/-!
# The order of the tables

Composites are filed by their parts. None is filed twice, none is filed under
a module that its text does not depend on, and the parts of a composite are
filed before it: that is `Filed`. The order explains why nothing is filed
twice. A composite is filed when its parts have been rendered, and rendering
a part files nothing that is larger than the part, so the composite cannot
have been filed in the meantime.

Unlike in `Placement.Emits`, faults count here. So owners are found by a
function of the owner (`Placement.renderer`), and `Placement.Settles` gives
the outcome of an emission, success or fault, in every session that is in
order. The outcome does not mention the session, which is why the tables
cannot be seen.
-/

namespace ComponentBindings

namespace Shape

/-- The parts of a composite. -/
def parts : Shape → List Shape
  | .unit | .primitive _ | .named _ | .handle _ => []
  | .list s | .option s | .aliasOf s => [s]
  | .result s t => [s, t]
  | .tuple ss => ss

/-- Whether a shape is that of a type that is written inline. -/
def isComposite : Shape → Bool
  | .unit | .primitive _ | .named _ => false
  | .handle _ | .list _ | .option _ | .aliasOf _ | .result _ _ | .tuple _ => true

/-- A composite depends on its module where one of its parts does. -/
theorem isScoped_of_mem_parts {shape part : Shape} (h : part ∈ shape.parts)
    (hpart : part.isScoped = true) : shape.isScoped = true := by
  have items : ∀ ss : List Shape, part ∈ ss → anyScoped ss = true := by
    intro ss hmem
    induction ss with
    | nil => cases hmem
    | cons s ss ih =>
      rcases List.mem_cons.mp hmem with rfl | hmem
      · simp [anyScoped, hpart]
      · simp [anyScoped, ih hmem]
  cases shape with
  | unit | primitive _ | named _ | handle _ => cases h
  | list s | option s | aliasOf s =>
    obtain rfl : part = s := by simpa [parts] using h
    simpa [isScoped] using hpart
  | result s t =>
    rcases (by simpa [parts] using h : part = s ∨ part = t) with rfl | rfl <;>
      simp [isScoped, hpart]
  | tuple ss => exact items ss h

end Shape

/-- The composites that have been written, as a session files them. -/
abbrev Filing := List ((Option Location × Shape) × String)

/-- **Composites in the order of their parts.** -/
structure Filed (filing : Filing) : Prop where
  /-- Nothing is filed twice. -/
  nodup : (filing.map Prod.fst).Nodup
  /-- What does not depend on a module is filed under none. -/
  keyed : ∀ {k shape text}, ((k, shape), text) ∈ filing → Placement.tableKey k shape = (k, shape)
  /-- The parts come before the whole. -/
  parts : ∀ {before k shape text}, before ++ [((k, shape), text)] <+: filing →
    ∀ part ∈ shape.parts, part.isComposite = true →
      Placement.tableKey k part ∈ before.map Prod.fst

namespace Filed

open Placement

variable {filing : Filing} {scope : Option Location} {shape : Shape}

/-- At first nothing is filed. -/
theorem nil : Filed [] where
  nodup := List.nodup_nil
  keyed h := absurd h (List.not_mem_nil)
  parts h := absurd h (by simp)

/-- The key of a part is the same from the key of the whole. -/
theorem tableKey_part {part : Shape} (h : part ∈ shape.parts) :
    tableKey (tableKey scope shape).1 part = tableKey scope part := by
  unfold tableKey
  cases hpart : part.isScoped with
  | false => simp
  | true => simp [Shape.isScoped_of_mem_parts h hpart]

/-- **A composite is filed** when it is not there yet and its parts are. -/
theorem append (h : Filed filing) (hnew : tableKey scope shape ∉ filing.map Prod.fst)
    (hparts : ∀ part ∈ shape.parts, part.isComposite = true →
      tableKey scope part ∈ filing.map Prod.fst) (text : String) :
    Filed (filing ++ [(tableKey scope shape, text)]) where
  nodup := by
    rw [List.map_append, List.map_singleton, ← List.concat_eq_append]
    exact h.nodup.concat hnew
  keyed := by
    intro k shape' text' hmem
    rcases List.mem_append.mp hmem with hmem | hmem
    · exact h.keyed hmem
    · obtain ⟨⟨rfl, rfl⟩, rfl⟩ :
          (k = (tableKey scope shape).1 ∧ shape' = shape) ∧ text' = text := by
        simpa [Prod.ext_iff, tableKey] using hmem
      unfold tableKey
      cases shape'.isScoped <;> rfl
  parts := by
    intro before k shape' text' hbefore part hpart hcomposite
    rcases List.prefix_concat_iff.mp hbefore with heq | hbefore
    · obtain ⟨rfl, hentry⟩ := List.append_inj' heq rfl
      obtain ⟨⟨rfl, rfl⟩, -⟩ : (k = (tableKey scope shape).1 ∧ shape' = shape) ∧ text' = text := by
        simpa [Prod.ext_iff, tableKey] using hentry
      rw [tableKey_part hpart]
      exact hparts part hpart hcomposite
    · exact h.parts hbefore part hpart hcomposite

/-- What is filed is found. -/
theorem lookup_of_mem (h : Filed filing) {key : Option Location × Shape} {text : String}
    (hmem : (key, text) ∈ filing) : filing.lookup key = some text := by
  obtain ⟨before, after, rfl⟩ := List.append_of_mem hmem
  refine List.lookup_eq_some_iff.mpr ⟨before, after, rfl, fun entry hentry => ?_⟩
  have hnodup := h.nodup
  rw [List.map_append, List.nodup_append] at hnodup
  have hne := hnodup.2.2 entry.1 (List.mem_map_of_mem hentry) key (by simp)
  simpa using hne.symm

end Filed

/-! ## Outcomes that are settled -/

/-- A result that is known beforehand, in a session. -/
def outcome {ε σ α : Type} : Except ε α → σ → EStateM.Result ε σ α
  | .ok a, s => .ok a s
  | .error e, s => .error e s

namespace Placement

variable {p : Placement} {scope : Option Location}

/-- **A session that is in order**: its tables are right, and its composites
are filed by their parts. -/
structure Tidy (p : Placement) (s : Session) : Prop where
  /-- The tables are right. -/
  coherent : p.Coherent s
  /-- The composites are in order. -/
  filed : Filed s.instantiations

/-- A run starts in order. -/
theorem Tidy.start : p.Tidy {} := ⟨.start, .nil⟩

/-- A session after some composites of a kind have been filed. -/
structure Files (small : Shape → Prop) (s s' : Session) : Prop where
  /-- References are added at the end. -/
  references : s.references <+: s'.references
  /-- Composites of that kind are filed at the end. -/
  instantiations : ∃ new : Filing,
    s'.instantiations = s.instantiations ++ new ∧ ∀ entry ∈ new, small entry.1.2

/-- What a session has on record for a module: references to some types, and
the composites among some shapes. -/
structure Records (scope : Option Location) (types : List Int) (shapes : List Shape) (s : Session) :
    Prop where
  /-- The types have been referred to. -/
  types : ∀ id ∈ types, (s.wording scope id).isSome
  /-- The composites are filed. -/
  shapes : ∀ shape ∈ shapes, shape.isComposite = true →
    tableKey scope shape ∈ s.instantiations.map Prod.fst

namespace Files

variable {small : Shape → Prop} {s s' s'' : Session}

protected theorem refl (s : Session) : Files small s s := ⟨List.prefix_rfl, [], by simp⟩

protected theorem trans (h : Files small s s') (h' : Files small s' s'') : Files small s s'' := by
  obtain ⟨new, heq, hnew⟩ := h.instantiations
  obtain ⟨new', heq', hnew'⟩ := h'.instantiations
  refine ⟨h.references.trans h'.references, new ++ new', by rw [heq', heq, List.append_assoc], ?_⟩
  intro entry hentry
  rcases List.mem_append.mp hentry with hentry | hentry
  · exact hnew entry hentry
  · exact hnew' entry hentry

/-- What is filed is of a wider kind, too. -/
theorem mono {wide : Shape → Prop} (h : Files small s s')
    (hwide : ∀ shape, small shape → wide shape) : Files wide s s' := by
  obtain ⟨new, heq, hnew⟩ := h.instantiations
  exact ⟨h.references, new, heq, fun entry hentry => hwide _ (hnew entry hentry)⟩

/-- A composite that was not on file is not filed with what is smaller. -/
theorem key_notMem {k : Option Location} {shape : Shape}
    (h : Files (fun other => sizeOf other < sizeOf shape) s s')
    (hnone : s.instantiations.lookup (k, shape) = none) :
    (k, shape) ∉ s'.instantiations.map Prod.fst := by
  obtain ⟨new, heq, hsmall⟩ := h.instantiations
  rw [heq, List.map_append, List.mem_append]
  rintro (hold | hfiled)
  · obtain ⟨entry, hentry, hkey⟩ := List.mem_map.mp hold
    have hne := List.lookup_eq_none_iff.mp hnone entry hentry
    rw [hkey] at hne
    simp at hne
  · obtain ⟨entry, hentry, hkey⟩ := List.mem_map.mp hfiled
    have hlt := hsmall entry hentry
    rw [hkey] at hlt
    exact absurd hlt (Nat.lt_irrefl _)

/-- What is on record stays on record. -/
theorem records (h : Files small s s') {types : List Int} {shapes : List Shape}
    (hs : Records scope types shapes s) : Records scope types shapes s' where
  types id hid := by
    obtain ⟨text, htext⟩ := Option.isSome_iff_exists.mp (hs.types id hid)
    obtain ⟨more, hmore⟩ := h.references
    unfold Session.wording at htext ⊢
    rw [← hmore, List.lookup_append, htext]
    rfl
  shapes shape hshape hcomposite := by
    obtain ⟨new, heq, -⟩ := h.instantiations
    rw [heq, List.map_append]
    exact List.mem_append_left _ (hs.shapes shape hshape hcomposite)

end Files

/-- **An emission whose outcome is settled**: it is the same in all sessions
that are in order. The session stays in order, in a fault as well, files only
composites that are small enough, and after a success it has certain types
and composites on record. -/
def Settles {α : Type} (p : Placement) (scope : Option Location) (x : Emission α)
    (expected : Except Fault α) (small : Shape → Prop) (types : List Int) (shapes : List Shape) :
    Prop :=
  ∀ s, p.Tidy s → ∃ s', x s = outcome expected s' ∧ p.Tidy s' ∧ Files small s s' ∧
    ∀ a, expected = .ok a → Records scope types shapes s'

namespace Settles

variable {α β : Type} {x : Emission α} {expected : Except Fault α} {small : Shape → Prop}
  {types types' : List Int} {shapes shapes' : List Shape}

/-- A result that needs no session is settled. -/
theorem ofExcept : p.Settles scope (Emission.ofExcept expected) expected small [] [] := by
  intro s hs
  refine ⟨s, ?_, hs, .refl s, fun _ _ => ⟨by simp, by simp⟩⟩
  cases expected <;> rfl

/-- A value is settled. -/
theorem pure (a : α) : p.Settles scope (Pure.pure a) (.ok a) small [] [] := by
  show p.Settles scope (Emission.ofExcept (.ok a)) (.ok a) small [] []
  exact ofExcept

/-- **One step after another.** -/
theorem bind (hx : p.Settles scope x expected small types shapes) {f : α → Emission β}
    {next : α → Except Fault β}
    (hf : ∀ a, expected = .ok a → p.Settles scope (f a) (next a) small types' shapes') :
    p.Settles scope (x >>= f) (expected >>= next) small (types ++ types') (shapes ++ shapes') := by
  intro s hs
  obtain ⟨s', hrun, hs', hfiles, hrecords⟩ := hx s hs
  cases hexpected : expected with
  | error e =>
    refine ⟨s', ?_, hs', hfiles, fun a ha => by cases ha⟩
    rw [hexpected] at hrun
    exact bind_eq_error.mpr (.inl hrun)
  | ok a =>
    obtain ⟨s'', hrun', hs'', hfiles', hrecords'⟩ := hf a hexpected s' hs'
    refine ⟨s'', ?_, hs'', hfiles.trans hfiles', fun b hb => ⟨?_, ?_⟩⟩
    · rw [hexpected] at hrun
      show EStateM.bind x f s = outcome (next a) s''
      unfold EStateM.bind
      rw [hrun]
      exact hrun'
    · intro id hid
      rcases List.mem_append.mp hid with hid | hid
      · exact (hfiles'.records (hrecords a hexpected)).types id hid
      · exact (hrecords' b hb).types id hid
    · intro shape hshape
      rcases List.mem_append.mp hshape with hshape | hshape
      · exact (hfiles'.records (hrecords a hexpected)).shapes shape hshape
      · exact (hrecords' b hb).shapes shape hshape

/-- What is filed and recorded may be said in weaker terms. -/
theorem weaken (hx : p.Settles scope x expected small types shapes) (wide : Shape → Prop)
    (hwide : ∀ shape, small shape → wide shape) (htypes : types' ⊆ types)
    (hshapes : shapes' ⊆ shapes) : p.Settles scope x expected wide types' shapes' := by
  intro s hs
  obtain ⟨s', hrun, hs', hfiles, hrecords⟩ := hx s hs
  exact ⟨s', hrun, hs', hfiles.mono hwide, fun a ha =>
    ⟨fun id hid => (hrecords a ha).types id (htypes hid),
      fun shape hshape => (hrecords a ha).shapes shape (hshapes hshape)⟩⟩

/-- A shape that is no composite need not be filed. -/
theorem plain (hx : p.Settles scope x expected small types []) {shape : Shape}
    (hplain : shape.isComposite = false) : p.Settles scope x expected small types [shape] := by
  intro s hs
  obtain ⟨s', hrun, hs', hfiles, hrecords⟩ := hx s hs
  refine ⟨s', hrun, hs', hfiles,
    fun a ha => ⟨(hrecords a ha).types, fun other hother hcomposite => ?_⟩⟩
  obtain rfl := List.mem_singleton.mp hother
  rw [hplain] at hcomposite
  cases hcomposite

end Settles

/-- A composite that is spelled with what is on record is spelled with what
the placement prescribes. -/
theorem Coherent.spell_eq_ok {s : Session} (h : p.Coherent s) {shape : Shape} {text : String}
    (hspell : shape.spell (s.wording scope) = some text) :
    shape.spell (p.referenceText scope) = .ok text := by
  have hmore : shape.spell (p.wording scope) = some text :=
    Shape.spell_mono (h.extends_wording scope) hspell
  unfold wording at hmore
  rw [Shape.spell_toOption] at hmore
  exact except_toOption_eq_some.mp hmore

/-- A composite whose names are on record is spelled with what is on
record. -/
theorem Coherent.spell_eq_some {s : Session} (h : p.Coherent s) {shape : Shape} {text : String}
    (hnames : ∀ id ∈ shape.names, (s.wording scope id).isSome)
    (hspell : shape.spell (p.referenceText scope) = .ok text) :
    shape.spell (s.wording scope) = some text := by
  have hsame : shape.spell (s.wording scope) = shape.spell (p.wording scope) := by
    refine Shape.spell_congr shape fun id hid => ?_
    obtain ⟨reference, href⟩ := Option.isSome_iff_exists.mp (hnames id hid)
    rw [href, h.extends_wording scope id reference href]
  rw [hsame]
  unfold wording
  rw [Shape.spell_toOption, hspell]
  rfl

end Placement

/-! ## Rendering is settled -/

namespace Placement

variable {p : Placement} {scope : Option Location} {small : Shape → Prop}

/-- The renderer that finds owners by the placement itself. -/
def renderer (p : Placement) (scope : Option Location) : Renderer where
  graph := p.graph
  locate owner := Emission.ofExcept (p.place owner)
  scope := scope

/-- The renderer of a placement writes the module it is given. -/
@[simp] theorem renderer_scope (p : Placement) (scope : Option Location) :
    (p.renderer scope).scope = scope := rfl

/-- **A placement that takes no notes.** -/
def ofPlaces (g : Graph) (orderly : g.Orderly) (place : TypeOwner → Except Fault Location) :
    Placement where
  graph := g
  orderly := orderly
  place := place
  noted _ _ := True
  noted_mono _ _ := trivial
  waits _ := True

/-- A new reference is the prescribed one or the fault in its place. -/
theorem newReference_eq {t : TypeDef} (ht : p.graph.typeDef t.id = .ok t) (s : Session) :
    (p.renderer scope).newReference t s = outcome (p.referenceText scope t.id) s := by
  unfold referenceText
  rw [ht]
  show EStateM.bind _ _ s = outcome (t.identifier >>= _) s
  unfold EStateM.bind
  cases t.identifier with
  | error e => rfl
  | ok name =>
    cases t.owner with
    | none => rfl
    | some owner =>
      show EStateM.bind (Emission.ofExcept (p.place owner)) _ s = outcome (p.place owner >>= _) s
      unfold EStateM.bind
      cases p.place owner <;> rfl

/-- **A reference is settled.** -/
theorem settles_reference (hnoted : ∀ o s, p.noted o s) {t : TypeDef}
    (ht : p.graph.typeDef t.id = .ok t) :
    p.Settles scope ((p.renderer scope).reference t) (p.referenceText scope t.id) small
      [t.id] [] := by
  intro s hs
  cases hknown : s.references.lookup (t.id, scope) with
  | some text =>
    rw [Renderer.reference_of_known hknown]
    refine ⟨s, ?_, hs, .refl s, fun _ _ => ⟨?_, by simp⟩⟩
    · rw [hs.coherent.references hknown]
      rfl
    · intro id hid
      obtain rfl := List.mem_singleton.mp hid
      exact Option.isSome_of_eq_some hknown
  | none =>
    rw [Renderer.reference_of_new hknown, renderer_scope]
    cases htext : p.referenceText scope t.id with
    | error e =>
      refine ⟨s, bind_eq_error.mpr (.inl ?_), hs, .refl s, fun a ha => by cases ha⟩
      rw [newReference_eq ht, htext]
      rfl
    | ok text =>
      refine ⟨_, bind_eq_ok.mpr ⟨text, s, ?_, rfl⟩, ⟨?_, hs.filed⟩,
        ⟨List.prefix_append _ _, [], by simp⟩, fun _ _ => ⟨?_, by simp⟩⟩
      · rw [newReference_eq ht, htext]
        rfl
      · exact hs.coherent.remember_reference ht htext fun o _ => hnoted o s
      · intro id hid
        obtain rfl := List.mem_singleton.mp hid
        unfold Session.wording
        rw [List.lookup_append, hknown, List.lookup_cons_self]
        rfl

/-- A reference by id is settled. -/
theorem settles_referenceTo (hnoted : ∀ o s, p.noted o s) (id : Int) :
    p.Settles scope ((p.renderer scope).referenceTo id) (p.referenceText scope id) small
      [id] [] := by
  cases ht : p.graph.typeDef id with
  | error e =>
    intro s hs
    refine ⟨s, ?_, hs, .refl s, fun a ha => ?_⟩
    · unfold referenceText Renderer.referenceTo
      show ((Emission.ofExcept (p.graph.typeDef id)) >>= _ : Emission String) s = _
      rw [ht]
      rfl
    · unfold referenceText at ha
      rw [ht] at ha
      cases ha
  | ok t =>
    obtain rfl : t.id = id := p.orderly.typeDef_id ht
    have hsame : (p.renderer scope).referenceTo t.id = (p.renderer scope).reference t := by
      show (Emission.ofExcept (p.graph.typeDef t.id) >>= _) = _
      rw [ht]
      rfl
    rw [hsame]
    exact settles_reference hnoted ht

/-- **Filing a composite is settled** where building it is: its parts have
been filed by then, and it has not been, since what its parts file is
smaller. -/
theorem settles_remembered {shape : Shape} {build : Emission String}
    (hbuild : p.Settles scope build (shape.spell (p.referenceText scope))
      (fun other => sizeOf other < sizeOf shape) shape.names shape.parts) :
    p.Settles scope ((p.renderer scope).remembered shape build)
      (shape.spell (p.referenceText scope)) (fun other => sizeOf other ≤ sizeOf shape)
      shape.names [shape] := by
  intro s hs
  cases hknown : s.instantiations.lookup (tableKey scope shape) with
  | some text =>
    rw [Renderer.remembered_of_known hknown]
    have hspell := hs.coherent.instantiations hknown
    refine ⟨s, ?_, hs, .refl s, fun _ _ => ⟨?_, ?_⟩⟩
    · rw [hs.coherent.spell_eq_ok hspell]
      rfl
    · exact Shape.isSome_of_spell shape hspell
    · intro other hother _
      obtain rfl := List.mem_singleton.mp hother
      obtain ⟨before, after, heq, -⟩ := List.lookup_eq_some_iff.mp hknown
      rw [heq]
      simp
  | none =>
    rw [Renderer.remembered_of_new hknown, renderer_scope]
    -- The parts are filed while the text is built, and stay filed if that fails.
    obtain ⟨s₁, hrunb, hs₁, hfiles, hrecords⟩ := hbuild s hs
    cases hexpected : shape.spell (p.referenceText scope) with
    | error e =>
      rw [hexpected] at hrunb
      exact ⟨s₁, bind_eq_error.mpr (.inl hrunb), hs₁,
        hfiles.mono fun _ h => Nat.le_of_lt h, fun a ha => by cases ha⟩
    | ok text =>
      rw [hexpected] at hrunb
      have hrec := hrecords text hexpected
      have hspell := hs₁.coherent.spell_eq_some hrec.types hexpected
      have hnew := hfiles.key_notMem hknown
      refine ⟨_, bind_eq_ok.mpr ⟨text, s₁, hrunb, rfl⟩,
        ⟨hs₁.coherent.remember_instantiation hspell, hs₁.filed.append hnew hrec.shapes text⟩,
        ?_, fun _ _ => ⟨hrec.types, ?_⟩⟩
      · refine (hfiles.mono fun _ h => Nat.le_of_lt h).trans ⟨List.prefix_rfl,
          [(tableKey scope shape, text)], rfl, ?_⟩
        intro entry hentry
        obtain rfl := List.mem_singleton.mp hentry
        exact Nat.le_refl _
      · intro other hother _
        obtain rfl := List.mem_singleton.mp hother
        simp

mutual

/-- **Rendering a shape is settled**: it is spelled with what the placement
prescribes, and filed with all its parts. -/
theorem settles_renderShape (hnoted : ∀ o s, p.noted o s) :
    (shape : Shape) → p.Settles scope ((p.renderer scope).renderShape shape)
      (shape.spell (p.referenceText scope)) (fun other => sizeOf other ≤ sizeOf shape)
      shape.names [shape]
  | .unit => by
    unfold Renderer.renderShape
    exact (Settles.pure unitSpelling).plain rfl
  | .primitive q => by
    unfold Renderer.renderShape
    exact (Settles.pure q.spelling).plain rfl
  | .named id => by
    unfold Renderer.renderShape
    exact (settles_referenceTo hnoted id).plain rfl
  | .handle resource => by
    unfold Renderer.renderShape
    exact settles_remembered (settles_referenceTo hnoted resource)
  | .list element => by
    unfold Renderer.renderShape
    refine settles_remembered (((settles_renderShape hnoted element).bind fun text _ =>
      Settles.pure (listSpelling text)).weaken _ ?_ ?_ ?_)
    · exact fun other h => Nat.lt_of_le_of_lt h (by simp)
    · simp [Shape.names]
    · simp [Shape.parts]
  | .option element => by
    unfold Renderer.renderShape
    refine settles_remembered (((settles_renderShape hnoted element).bind fun text _ =>
      Settles.pure (optionSpelling text)).weaken _ ?_ ?_ ?_)
    · exact fun other h => Nat.lt_of_le_of_lt h (by simp)
    · simp [Shape.names]
    · simp [Shape.parts]
  | .aliasOf target => by
    unfold Renderer.renderShape
    refine settles_remembered ((settles_renderShape hnoted target).weaken _ ?_ ?_ ?_)
    · exact fun other h => Nat.lt_of_le_of_lt h (by simp)
    · simp [Shape.names]
    · simp [Shape.parts]
  | .result ok err => by
    unfold Renderer.renderShape
    have hok := (settles_renderShape hnoted ok).weaken
      (fun other => sizeOf other < sizeOf (Shape.result ok err))
      (fun other h => Nat.lt_of_le_of_lt h (by simp only [Shape.result.sizeOf_spec]; omega))
      (List.Subset.refl _) (List.Subset.refl _)
    have herr := (settles_renderShape hnoted err).weaken
      (fun other => sizeOf other < sizeOf (Shape.result ok err))
      (fun other h => Nat.lt_of_le_of_lt h (by simp only [Shape.result.sizeOf_spec]; omega))
      (List.Subset.refl _) (List.Subset.refl _)
    refine settles_remembered ((hok.bind fun okText _ => herr.bind fun errText _ =>
      Settles.pure (resultSpelling okText errText)).weaken _ (fun _ h => h) ?_ ?_)
    · simp [Shape.names]
    · simp [Shape.parts]
  | .tuple items => by
    unfold Renderer.renderShape
    refine settles_remembered (((settles_renderShapes hnoted items).bind fun texts _ =>
      Settles.pure (tupleSpelling texts)).weaken _ ?_ ?_ ?_)
    · exact fun other h => Nat.lt_of_le_of_lt h (by simp)
    · simp [Shape.names]
    · simp [Shape.parts]

theorem settles_renderShapes (hnoted : ∀ o s, p.noted o s) :
    (shapes : List Shape) → p.Settles scope ((p.renderer scope).renderShapes shapes)
      (Shape.spellItems (p.referenceText scope) shapes)
      (fun other => sizeOf other ≤ sizeOf shapes) (Shape.namesOfItems shapes) shapes
  | [] => by
    unfold Renderer.renderShapes
    exact Settles.pure []
  | shape :: rest => by
    unfold Renderer.renderShapes
    have hhead := (settles_renderShape hnoted shape).weaken
      (fun other => sizeOf other ≤ sizeOf (shape :: rest))
      (fun other h => Nat.le_trans h (by simp; omega)) (List.Subset.refl _) (List.Subset.refl _)
    have htail := (settles_renderShapes hnoted rest).weaken
      (fun other => sizeOf other ≤ sizeOf (shape :: rest))
      (fun other h => Nat.le_trans h (by simp)) (List.Subset.refl _) (List.Subset.refl _)
    refine (hhead.bind fun text _ => htail.bind fun texts _ =>
      Settles.pure (text :: texts)).weaken _ (fun _ h => h) ?_ ?_
    · simp [Shape.namesOfItems]
    · simp

end

end Placement

end ComponentBindings
