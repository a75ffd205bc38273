import ComponentBindings.Proofs.Inline
import ComponentBindings.Proofs.Mapper
import Mathlib.Data.Finset.Basic

/-!
# The search for a shape

The shape of a reference is found by a search that goes down through the types
without a name. It keeps a set of the types that are being expanded: a type is
put into it when the search enters it and taken out when the search leaves it,
in whichever way, and to meet a type that is in the set is to go round. The
set outlives the search, so that a type which stayed in it would be taken for
going round later on.

`Graph.Search` is this search step by step, with the set before and after.
`Graph.search_iff` says that it always comes to an end, in one way only, that
it leaves the set as it was, and that its outcome is the one that
`Graph.armWithin` finds when only what is not being expanded may be entered.
What the outcome means is the subject of `Graph.Inlinable`.
-/

namespace ComponentBindings

namespace Graph

variable {g : Graph} {expanding expanding' : Finset Int} {id : Int} {t : TypeDef}

mutual

/-- **A search for the shape of an arm**: the types that are being expanded
before it, the arm, the outcome, and the types that are being expanded
after it. -/
inductive Search (g : Graph) :
    Finset Int → Option TypeRef → Except Fault Shape → Finset Int → Prop
  /-- Nothing has the shape of nothing. -/
  | nothing {expanding : Finset Int} : Search g expanding none (.ok .unit) expanding
  /-- A primitive has its own shape. -/
  | primitive {expanding : Finset Int} {p : Primitive} :
    Search g expanding (some (.primitive p)) (.ok (.primitive p)) expanding
  /-- An id may point nowhere. -/
  | missing {expanding : Finset Int} {id : Int} {fault : Fault} : g.typeDef id = .error fault →
    Search g expanding (some (.defined id)) (.error fault) expanding
  /-- A type with a name is not looked into. -/
  | named {expanding : Finset Int} {id : Int} {t : TypeDef} : g.typeDef id = .ok t →
    t.name.isSome = true → Search g expanding (some (.defined id)) (.ok (.named id)) expanding
  /-- A type that is being expanded goes round. -/
  | again {expanding : Finset Int} {id : Int} {t : TypeDef} : g.typeDef id = .ok t →
    t.name = none → id ∈ expanding →
      Search g expanding (some (.defined id)) (.error (.selfReference id)) expanding
  /-- A type is entered, refused, and left. -/
  | refused {expanding : Finset Int} {id : Int} {t : TypeDef} : g.typeDef id = .ok t →
    t.name = none → id ∉ expanding → t.kind.arms = none →
      Search g expanding (some (.defined id)) (.error (t.kind.refusal id))
        ((insert id expanding).erase id)
  /-- A type is entered, its arms are searched, and it is left. -/
  | entered {expanding expanding' : Finset Int} {id : Int} {t : TypeDef}
    {arms : List (Option TypeRef)} {outcome : Except Fault (List Shape)} : g.typeDef id = .ok t →
    t.name = none → id ∉ expanding → t.kind.arms = some arms →
    SearchAll g (insert id expanding) arms outcome expanding' →
      Search g expanding (some (.defined id)) (t.kind.shapeOfArms <$> outcome)
        (expanding'.erase id)

/-- **Searches one after the other**, up to the first fault. -/
inductive SearchAll (g : Graph) :
    Finset Int → List (Option TypeRef) → Except Fault (List Shape) → Finset Int → Prop
  /-- There is nothing left to search. -/
  | nil {expanding : Finset Int} : SearchAll g expanding [] (.ok []) expanding
  /-- A fault ends it. -/
  | failed {expanding expanding' : Finset Int} {arm : Option TypeRef}
    {arms : List (Option TypeRef)} {fault : Fault} :
    Search g expanding arm (.error fault) expanding' →
      SearchAll g expanding (arm :: arms) (.error fault) expanding'
  /-- A shape is found, and the search goes on. -/
  | cons {expanding expanding' expanding'' : Finset Int} {arm : Option TypeRef}
    {arms : List (Option TypeRef)} {shape : Shape} {outcome : Except Fault (List Shape)} :
    Search g expanding arm (.ok shape) expanding' →
    SearchAll g expanding' arms outcome expanding'' →
      SearchAll g expanding (arm :: arms) ((shape :: ·) <$> outcome) expanding''

end

/-- The types that may be entered while others are being expanded. -/
def enterable (g : Graph) (expanding : Finset Int) : List Int :=
  g.typeIds.filter (· ∉ expanding)

/-- A type may be entered unless it is being expanded. -/
theorem mem_enterable_iff (ht : g.typeDef id = .ok t) :
    id ∈ g.enterable expanding ↔ id ∉ expanding := by
  have hid : id ∈ g.typeIds := mem_typeIds_iff.mpr (has_of_typeDef ht)
  simp [enterable, hid]

/-- To enter a type is to take it out of what may be entered. -/
theorem enterable_insert (id : Int) (expanding : Finset Int) :
    g.enterable (insert id expanding) = (g.enterable expanding).erase id := by
  rw [enterable, enterable, (nodup_typeIds.filter _).erase_eq_filter, List.filter_filter]
  refine List.filter_congr fun other _ => ?_
  rw [Bool.eq_iff_iff]
  simp [not_or]

mutual

/-- A search leaves the set as it was, and finds what the shapes within the
other types are. -/
theorem Search.eq : {expanding : Finset Int} → {arm : Option TypeRef} →
    {outcome : Except Fault Shape} → {expanding' : Finset Int} →
    g.Search expanding arm outcome expanding' →
    outcome = g.armWithin (g.enterable expanding) arm ∧ expanding' = expanding
  | _, _, _, _, .nothing => by
    rw [armWithin]
    exact ⟨rfl, rfl⟩
  | _, _, _, _, .primitive => by
    rw [armWithin, shapeWithin]
    exact ⟨rfl, rfl⟩
  | _, _, _, _, .missing hfault => by
    rw [armWithin_some, shapeWithin_missing hfault]
    exact ⟨rfl, rfl⟩
  | _, _, _, _, .named ht hname => by
    rw [armWithin_some, shapeWithin_named ht hname]
    exact ⟨rfl, rfl⟩
  | _, _, _, _, .again ht hname hmem => by
    have hout := (mem_enterable_iff ht).not.mpr (not_not.mpr hmem)
    rw [armWithin_some, shapeWithin_again ht hname hout]
    exact ⟨rfl, rfl⟩
  | _, _, _, _, .refused ht hname hmem harms => by
    rw [armWithin_some, shapeWithin_refused ht hname ((mem_enterable_iff ht).mpr hmem) harms]
    exact ⟨rfl, Finset.erase_insert hmem⟩
  | _, _, _, _, .entered ht hname hmem harms hsearch => by
    obtain ⟨rfl, rfl⟩ := hsearch.eq
    rw [armWithin_some, shapeWithin_entered ht hname ((mem_enterable_iff ht).mpr hmem) harms,
      enterable_insert]
    exact ⟨rfl, Finset.erase_insert hmem⟩

theorem SearchAll.eq : {expanding : Finset Int} → {arms : List (Option TypeRef)} →
    {outcome : Except Fault (List Shape)} → {expanding' : Finset Int} →
    g.SearchAll expanding arms outcome expanding' →
    outcome = arms.mapM (g.armWithin (g.enterable expanding)) ∧ expanding' = expanding
  | _, _, _, _, .nil => ⟨rfl, rfl⟩
  | _, _, _, _, .failed hsearch => by
    obtain ⟨hfault, rfl⟩ := hsearch.eq
    rw [List.mapM_cons, ← hfault]
    exact ⟨rfl, rfl⟩
  | _, _, _, _, .cons hsearch hrest => by
    obtain ⟨hshape, rfl⟩ := hsearch.eq
    obtain ⟨rfl, rfl⟩ := hrest.eq
    rw [List.mapM_cons, ← hshape]
    exact ⟨rfl, rfl⟩

end

/-- A search leaves the set as it was. -/
theorem Search.restores {arm : Option TypeRef} {outcome : Except Fault Shape}
    (h : g.Search expanding arm outcome expanding') : g.Search expanding arm outcome expanding := by
  obtain ⟨-, rfl⟩ := h.eq
  exact h

/-- Searches that find what the shapes are, one by one, find what they are all
together. -/
theorem searchAll_mapM {arms : List (Option TypeRef)}
    (h : ∀ arm ∈ arms, g.Search expanding arm (g.armWithin (g.enterable expanding) arm) expanding) :
    g.SearchAll expanding arms (arms.mapM (g.armWithin (g.enterable expanding))) expanding := by
  induction arms with
  | nil => exact .nil
  | cons arm arms ih =>
    have hhead := h arm List.mem_cons_self
    have htail := ih fun arm' harm' => h arm' (List.mem_cons_of_mem _ harm')
    rw [List.mapM_cons]
    cases hshape : g.armWithin (g.enterable expanding) arm with
    | error fault => exact .failed (hshape ▸ hhead)
    | ok shape => exact .cons (hshape ▸ hhead) htail

/-- A search for an arm ends if the searches for references do. -/
theorem search_armWithin {arm : Option TypeRef}
    (h : ∀ ref, g.Search expanding (some ref) (g.shapeWithin (g.enterable expanding) ref)
      expanding) : g.Search expanding arm (g.armWithin (g.enterable expanding) arm) expanding := by
  cases arm with
  | none =>
    rw [armWithin]
    exact .nothing
  | some ref =>
    rw [armWithin_some]
    exact h ref

/-- **Every search comes to an end.** Each type that is entered leaves one less
to be entered below it. -/
theorem search_shapeWithin (ref : TypeRef) {enterable : List Int} (expanding : Finset Int)
    (henterable : g.enterable expanding = enterable) :
    g.Search expanding (some ref) (g.shapeWithin enterable ref) expanding := by
  induction enterable, ref using g.shapeWithin_induction generalizing expanding with
  | primitive enterable p =>
    rw [shapeWithin]
    exact .primitive
  | missing hmissing =>
    rw [shapeWithin_missing hmissing]
    exact .missing hmissing
  | named ht hname =>
    rw [shapeWithin_named ht hname]
    exact .named ht hname
  | again ht hname hout =>
    subst henterable
    have hmem := not_not.mp ((mem_enterable_iff ht).not.mp hout)
    rw [shapeWithin_again ht hname hout]
    exact .again ht hname hmem
  | refused ht hname henter harms =>
    subst henterable
    have hmem := (mem_enterable_iff ht).mp henter
    rw [shapeWithin_refused ht hname henter harms]
    exact (Search.refused ht hname hmem harms).restores
  | @entered _ id t arms ht hname henter harms ih =>
    subst henterable
    have hmem := (mem_enterable_iff ht).mp henter
    have hinside := enterable_insert (g := g) id expanding
    rw [shapeWithin_entered ht hname henter harms, ← hinside]
    refine (Search.entered ht hname hmem harms (searchAll_mapM fun arm _ => ?_)).restores
    refine search_armWithin fun part => ?_
    rw [hinside]
    exact ih part (insert id expanding) hinside

/-- **There is one search from everywhere**, it leaves the set as it was, and it
finds what the shape within the other types is. -/
theorem search_iff {arm : Option TypeRef} {outcome : Except Fault Shape} :
    g.Search expanding arm outcome expanding' ↔
      outcome = g.armWithin (g.enterable expanding) arm ∧ expanding' = expanding := by
  constructor
  · exact Search.eq
  · rintro ⟨rfl, rfl⟩
    exact search_armWithin fun ref => search_shapeWithin ref _ rfl

/-- **What searches leave in the set**, whatever they were for and whatever came
of them. -/
inductive Leaves (g : Graph) : Finset Int → Prop
  /-- At first nothing is being expanded. -/
  | start : Leaves g ∅
  /-- A search starts with what the others have left. -/
  | search {expanding expanding' : Finset Int} {arm : Option TypeRef}
    {outcome : Except Fault Shape} : Leaves g expanding →
    g.Search expanding arm outcome expanding' → Leaves g expanding'

/-- **Nothing is left in the set.** -/
theorem Leaves.eq_empty (h : g.Leaves expanding) : expanding = ∅ := by
  induction h with
  | start => rfl
  | search _ hsearch ih => rw [hsearch.eq.2, ih]

/-- A search on which nothing is being expanded finds the shape. -/
theorem Leaves.search_iff (h : g.Leaves expanding) {arm : Option TypeRef}
    {outcome : Except Fault Shape} :
    g.Search expanding arm outcome expanding' ↔
      outcome = g.shapeOfOptional arm ∧ expanding' = ∅ := by
  obtain rfl := h.eq_empty
  have hall : g.enterable ∅ = g.typeIds := by simp [enterable]
  rw [Graph.search_iff, hall]
  rfl

end Graph

/-! ## The search of a mapper -/

/-- **A mapper that searches exactly**: every search ends and leaves the set as
it was, what it finds is what the mapper answers, and it finds a shape exactly
where a reference can be written inline. -/
structure Mapper.Expands (m : Mapper) (ref : TypeRef) : Prop where
  /-- There is one search from everywhere, and it leaves the set as it was. -/
  ends : ∀ expanding, ∃ outcome, ∀ outcome' expanding',
    m.graph.Search expanding (some ref) outcome' expanding' ↔
      outcome' = outcome ∧ expanding' = expanding
  /-- After any searches, the mapper answers with the outcome of the search. -/
  answers : ∀ expanding outcome expanding', m.graph.Leaves expanding →
    m.graph.Search expanding (some ref) outcome expanding' →
      m.answer (.shape (some ref)) = (fun shape => .shape shape shape.isScoped) <$> outcome
  /-- There is a shape exactly if the reference points at a type and can be
  written inline. -/
  exact : (∃ answer, m.answer (.shape (some ref)) = .ok answer) ↔
    m.graph.HasRef ref ∧ m.graph.Inlinable ref
  /-- Otherwise there is a culprit, and it is the document that is at fault or a
  feature that is not supported. -/
  faults : ∀ fault, m.graph.HasRef ref → m.answer (.shape (some ref)) = .error fault →
    m.graph.Culprit ref fault ∧
      (fault.diagnostic.kind = .invalidDocument ∨ fault.diagnostic.kind = .unsupportedFeature)
  /-- What is said to refer to itself does go round. -/
  circle : ∀ id, m.answer (.shape (some ref)) = .error (.selfReference id) →
    m.graph.LeadsTo ref (.defined id) ∧ m.graph.GoesRound id
  /-- A reference that points at no type of the graph dangles. -/
  dangles : ¬ m.graph.HasRef ref → ∃ id, ref = .defined id ∧
    m.answer (.shape (some ref)) = .error (.dangling .types id none)
  /-- If everything that is referred to can be, a type is rendered exactly if it
  has a shape. -/
  renders : (∀ id, m.graph.RefersTo ref id → ∃ answer, m.answer (.reference id) = .ok answer) →
    ((∃ answer, m.answer (.render ref) = .ok answer) ↔
      ∃ answer, m.answer (.shape (some ref)) = .ok answer)

/-- A culprit is reported as a fault of the document, or as a feature that is not
supported. -/
theorem Graph.Culprit.kind_eq {g : Graph} {ref : TypeRef} {fault : Fault}
    (h : g.Culprit ref fault) : fault.diagnostic.kind = .invalidDocument ∨
      fault.diagnostic.kind = .unsupportedFeature := by
  cases h with
  | round _ _ => exact .inl rfl
  | @kind id t _ _ => cases t.kind <;> simp [TypeKind.refusal, Fault.diagnostic]

/-- The culprit that is said to refer to itself does go round. -/
theorem Graph.Culprit.goesRound {g : Graph} {ref : TypeRef} {id : Int}
    (h : g.Culprit ref (.selfReference id)) : g.LeadsTo ref (.defined id) ∧ g.GoesRound id := by
  generalize hfault : Fault.selfReference id = fault at h
  cases h with
  | round hmeets hround =>
    obtain rfl := Fault.selfReference.inj hfault
    exact ⟨hmeets.leads, hround⟩
  | @kind _ t _ _ => cases hkind : t.kind <;> simp [TypeKind.refusal, hkind] at hfault

namespace Mapper

open Placement

variable {m : Mapper}

/-- A mapper answers with the shape that the search finds. -/
theorem answer_shape (ref : Option TypeRef) :
    m.answer (.shape ref) = (fun shape => .shape shape shape.isScoped) <$>
      m.graph.shapeOfOptional ref := by
  cases hshape : m.graph.shapeOfOptional ref with
  | error fault =>
    have hperform : m.perform (.shape ref) m.session = .error fault m.session :=
      bind_eq_error.mpr (.inl (Emission.ofExcept_eq_error.mpr ⟨hshape, rfl⟩))
    rw [answer, hperform]
    rfl
  | ok shape =>
    have hperform : m.perform (.shape ref) m.session
        = .ok (.shape shape shape.isScoped) m.session :=
      bind_eq_ok.mpr ⟨shape, m.session, Emission.ofExcept_eq_ok.mpr ⟨hshape, rfl⟩, rfl⟩
    rw [answer, hperform]
    rfl

/-- A mapper whose session is in order answers with the reference that its
places prescribe. -/
theorem answer_reference (orderly : m.graph.Orderly) (hm : (m.placement orderly).Tidy m.session)
    (id : Int) :
    m.answer (.reference id) = .text <$> (m.placement orderly).referenceText m.scope id := by
  have hsettles : (m.placement orderly).Settles m.scope (m.renderer.referenceTo id)
      ((m.placement orderly).referenceText m.scope id) (fun _ => True) [id] [] :=
    settles_referenceTo (fun _ _ => trivial) id
  obtain ⟨s, hrun, -⟩ := hsettles m.session hm
  cases htext : (m.placement orderly).referenceText m.scope id with
  | error fault =>
    rw [htext] at hrun
    have hperform : m.perform (.reference id) m.session = .error fault s := map_eq_error.mpr hrun
    rw [answer, hperform]
    rfl
  | ok text =>
    rw [htext] at hrun
    have hperform : m.perform (.reference id) m.session = .ok (.text text) s :=
      map_eq_ok.mpr ⟨text, hrun, rfl⟩
    rw [answer, hperform]
    rfl

/-- **A mapper whose session is in order renders what has a shape that can be
spelled.** -/
theorem isOk_answer_render_iff (orderly : m.graph.Orderly)
    (hm : (m.placement orderly).Tidy m.session) (ref : TypeRef) :
    (∃ answer, m.answer (.render ref) = .ok answer) ↔ ∃ shape, m.graph.shapeOf ref = .ok shape ∧
      ∃ text, shape.spell ((m.placement orderly).referenceText m.scope) = .ok text := by
  cases hshape : m.graph.shapeOf ref with
  | error fault =>
    have hperform : m.perform (.render ref) m.session = .error fault m.session := by
      refine map_eq_error.mpr (bind_eq_error.mpr (.inl ?_))
      exact Emission.ofExcept_eq_error.mpr ⟨hshape, rfl⟩
    simp [answer, hperform]
  | ok shape =>
    have hsettles : (m.placement orderly).Settles m.scope (m.renderer.renderShape shape) _ _ _ _ :=
      settles_renderShape (fun _ _ => trivial) shape
    obtain ⟨s, hrun, -⟩ := hsettles m.session hm
    have hshaped : Emission.ofExcept (m.renderer.graph.shapeOf ref) m.session
        = .ok shape m.session := Emission.ofExcept_eq_ok.mpr ⟨hshape, rfl⟩
    cases htext : shape.spell ((m.placement orderly).referenceText m.scope) with
    | error fault =>
      rw [htext] at hrun
      have hperform : m.perform (.render ref) m.session = .error fault s := by
        refine map_eq_error.mpr (bind_eq_error.mpr (.inr ⟨shape, m.session, hshaped, ?_⟩))
        exact bind_eq_error.mpr (.inl hrun)
      simp [answer, hperform, htext]
    | ok text =>
      rw [htext] at hrun
      have hperform : m.perform (.render ref) m.session = .ok (.text text) s :=
        map_eq_ok.mpr ⟨⟨shape, text⟩, bind_eq_ok.mpr ⟨shape, m.session, hshaped,
          bind_eq_ok.mpr ⟨text, s, hrun, rfl⟩⟩, rfl⟩
      simp [answer, hperform, htext]

/-- **A mapper whose session is in order searches exactly.** -/
theorem expands_of_tidy (orderly : m.graph.Orderly) (closed : m.graph.Closed)
    (hm : (m.placement orderly).Tidy m.session) (ref : TypeRef) : m.Expands ref := by
  have hanswer : m.answer (.shape (some ref)) = (fun shape => .shape shape shape.isScoped) <$>
      m.graph.shapeOf ref := by
    rw [answer_shape, Graph.shapeOfOptional_some]
  have hok : (∃ answer, m.answer (.shape (some ref)) = .ok answer) ↔
      ∃ shape, m.graph.shapeOf ref = .ok shape := by
    rw [hanswer]
    simp only [except_map_eq_ok]
    constructor
    · rintro ⟨answer, shape, hshape, -⟩
      exact ⟨shape, hshape⟩
    · rintro ⟨shape, hshape⟩
      exact ⟨_, shape, hshape, rfl⟩
  have hculprit : ∀ fault, m.graph.HasRef ref → m.answer (.shape (some ref)) = .error fault →
      m.graph.Culprit ref fault := by
    intro fault href hfault
    rw [hanswer] at hfault
    exact closed.culprit_of_shapeOf href (except_map_eq_error.mp hfault)
  refine ⟨fun expanding => ?ends, ?answers, ?exact, ?faults, ?circle, ?dangles, ?renders⟩
  case ends => exact ⟨_, fun _ _ => Graph.search_iff⟩
  case answers =>
    intro expanding outcome expanding' hleaves hsearch
    rw [(hleaves.search_iff.mp hsearch).1, answer_shape]
  case exact =>
    rw [hok]
    by_cases href : m.graph.HasRef ref
    · simp [closed.isOk_shapeOf_iff href, href]
    · obtain ⟨id, -, hdangling⟩ := Graph.shapeOf_of_not_hasRef href
      simp [hdangling, href]
  case faults =>
    intro fault href hfault
    have hwhat := hculprit fault href hfault
    exact ⟨hwhat, hwhat.kind_eq⟩
  case circle =>
    intro id hfault
    by_cases href : m.graph.HasRef ref
    · exact (hculprit _ href hfault).goesRound
    · obtain ⟨id', -, hdangling⟩ := Graph.shapeOf_of_not_hasRef href
      rw [hanswer, hdangling] at hfault
      cases hfault
  case dangles =>
    intro href
    obtain ⟨id, heq, hdangling⟩ := Graph.shapeOf_of_not_hasRef href
    exact ⟨id, heq, by rw [hanswer, hdangling]; rfl⟩
  case renders =>
    intro hreferences
    rw [isOk_answer_render_iff orderly hm, hok]
    refine exists_congr fun shape => and_iff_left_of_imp fun hshape => ?_
    have href := Graph.hasRef_of_shapeOf hshape
    -- All names in the shape are referred to, so they can be spelled.
    have hspelled := Shape.isSome_spell (w := fun id =>
      ((m.placement orderly).referenceText m.scope id).toOption) shape fun id hid => by
        obtain ⟨answer, hid'⟩ := hreferences id ((closed.mem_names_iff href hshape).mp hid)
        rw [answer_reference orderly hm] at hid'
        obtain ⟨text, htext, -⟩ := except_map_eq_ok.mp hid'
        rw [htext]
        rfl
    rw [Shape.spell_toOption] at hspelled
    obtain ⟨text, htext⟩ := Option.isSome_iff_exists.mp hspelled
    exact ⟨text, except_toOption_eq_some.mp htext⟩

/-- **The search of a mapper is exact**, whatever it has been asked before and
whether or not it could answer. -/
theorem expands_of_ofDocument {document : Document} {g : Graph}
    (hg : Graph.ofDocument document = .ok g) (place : TypeOwner → Except Fault Location)
    (requests : List Request) (ref : TypeRef) :
    ((Mapper.mk g place none {}).afterAll requests).Expands ref := by
  have orderly := Graph.orderly_of_ofDocument hg
  have closed := Graph.closed_of_ofDocument hg
  obtain ⟨hgraph, hplace, htidy⟩ :=
    tidy_afterAll orderly place requests (Mapper.mk g place none {}) rfl rfl .start
  generalize (Mapper.mk g place none {}).afterAll requests = m at hgraph hplace htidy ⊢
  subst hgraph hplace
  exact expands_of_tidy orderly closed htidy ref

/-- A pair of twice the same list, and a list and an option that are made of
each other. -/
def foldedDocument : Document :=
  .object [(.text "types", .list [
    .object [(.text "kind", .object [(.text "tuple", .object
      [(.text "types", .list [.int 1, .int 1])])])],
    .object [(.text "kind", .object [(.text "list", .string "u8")])],
    .object [(.text "kind", .object [(.text "option", .int 3)])],
    .object [(.text "kind", .object [(.text "list", .int 2)])]])]

/-- The graph of that document. -/
def foldedGraph : Graph where
  packages := []
  interfaces := []
  types := [⟨0, none, .tuple [.defined 1, .defined 1], none, none⟩,
    ⟨1, none, .list (.primitive .u8), none, none⟩,
    ⟨2, none, .option (.defined 3), none, none⟩,
    ⟨3, none, .list (.defined 2), none, none⟩]
  worlds := []

/-- The search for the pair goes through the list twice. -/
theorem search_foldedPair : foldedGraph.Search ∅ (some (.defined 0))
    (.ok (.tuple [.list (.primitive .u8), .list (.primitive .u8)])) ∅ := by
  have hlist : foldedGraph.Search (insert 0 ∅) (some (.defined 1)) _ _ :=
    .entered rfl rfl (by decide) rfl (.cons .primitive .nil)
  have hpair : foldedGraph.Search ∅ (some (.defined 0)) _ _ :=
    .entered rfl rfl (by decide) rfl (.cons hlist.restores (.cons hlist.restores .nil))
  exact hpair.restores

/-- The search for the option comes back to it through the list. -/
theorem search_foldedOption : foldedGraph.Search ∅ (some (.defined 2))
    (.error (.selfReference 2)) ∅ := by
  have hlist : foldedGraph.Search (insert 2 ∅) (some (.defined 3)) _ _ :=
    .entered rfl rfl (by decide) rfl (.failed (.again rfl rfl (by decide)))
  have hoption : foldedGraph.Search ∅ (some (.defined 2)) _ _ :=
    .entered rfl rfl (by decide) rfl (.failed hlist.restores)
  exact hoption.restores

/-- After two searches have failed, the pair has its shape, and the option goes
round still. -/
theorem expands_folded :
    Graph.ofDocument foldedDocument = .ok foldedGraph ∧
    let m := (Mapper.mk foldedGraph (fun _ => .error (.unnamedInterface 0)) none {}).afterAll
      [.shape (some (.defined 2)), .render (.defined 3)]
    m.answer (.shape (some (.defined 0))) =
      .ok (.shape (.tuple [.list (.primitive .u8), .list (.primitive .u8)]) false) ∧
    m.answer (.shape (some (.defined 2))) = .error (.selfReference 2) ∧
    m.graph.Inlinable (.defined 0) ∧ m.graph.GoesRound 2 := by
  have hg : Graph.ofDocument foldedDocument = .ok foldedGraph := by rfl
  refine ⟨hg, ?_⟩
  have hexpands := expands_of_ofDocument hg (fun _ => .error (.unnamedInterface 0))
    [.shape (some (.defined 2)), .render (.defined 3)]
  have hpair := (hexpands (.defined 0)).answers _ _ _ .start search_foldedPair
  have hoption := (hexpands (.defined 2)).answers _ _ _ .start search_foldedOption
  exact ⟨hpair, hoption, ((hexpands (.defined 0)).exact.mp ⟨_, hpair⟩).2,
    ((hexpands (.defined 2)).circle 2 hoption).2⟩

end Mapper

end ComponentBindings
