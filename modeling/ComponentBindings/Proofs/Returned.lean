import ComponentBindings.Proofs.Run
import Mathlib.Algebra.BigOperators.Group.List.Basic
import Mathlib.Algebra.GroupWithZero.Nat
import Mathlib.Data.List.ReduceOption

/-!
# Reading the returned modules

What a caller gets from a run is a list of modules, and what it can ask of
them is which types they declare and which types their expressions mention.
This module has the words for both. `timesDeclared` counts the declarations
of a type over all modules, and `Module.SpelledBy` says of a module that its
expressions are written with given references.

A finished run answers both questions from the graph alone. A module
declares the types of its content, so that the declarations of a type are
counted by counting the contents (`Assignment.Finished.timesDeclared_eq`). Its
expressions are spelled with the references that the places of the owners
give (`Assignment.Finished.spelledBy`); and whatever it mentions has an owner
whose module was asked for (`Assignment.Finished.mentioned`).
-/

namespace ComponentBindings

/-! ## What is written in a module -/

/-- The type expressions of a signature. -/
def Signature.expressions (s : Signature) : List TypeExpr :=
  s.params.map Parameter.type ++ [s.result]

/-- The type expressions of a member of a companion. -/
def CompanionMember.expressions : CompanionMember → List TypeExpr
  | .constructor params _ => params.map Parameter.type
  | .static s => s.expressions

/-- The type expressions in the content of a declared type. -/
def TypeBody.expressions : TypeBody → List TypeExpr
  | .record fields => fields.map Parameter.type
  | .variant cases => cases.filterMap CaseDeclaration.payload
  | .flags _ _ => []
  | .aliasOf target => [target]
  | .resource _ _ methods companion =>
    methods.flatMap Signature.expressions ++ companion.flatMap CompanionMember.expressions

/-- The types that a module declares, resources at the end. -/
def Module.declarations (m : Module) : List TypeDeclaration := m.types ++ m.resources

/-- All type expressions of a module. -/
def Module.expressions (m : Module) : List TypeExpr :=
  m.declarations.flatMap (·.body.expressions) ++ m.functions.flatMap (·.signature.expressions)

/-- Whether a module declares a type. -/
def Module.DeclaresType (m : Module) (id : Int) : Prop := ∃ d ∈ m.declarations, d.id = id

/-- Whether a module refers to a type by name. -/
def Module.Mentions (m : Module) (id : Int) : Prop := ∃ e ∈ m.expressions, id ∈ e.shape.names

/-- How often a type is declared over all modules. -/
def timesDeclared (ms : List Module) (id : Int) : Nat :=
  (ms.flatMap Module.declarations).countP (·.id = id)

/-- A type expression is written with the references of a wording. -/
def TypeExpr.SpelledBy (w : Wording) (e : TypeExpr) : Prop := e.shape.spell w = some e.text

/-- **All type expressions of a module are written with the references of a
wording.** -/
def Module.SpelledBy (m : Module) (w : Wording) : Prop := ∀ e ∈ m.expressions, e.SpelledBy w

/-- The declarations of a type are counted module by module. -/
theorem timesDeclared_eq_sum (ms : List Module) (id : Int) :
    timesDeclared ms id = (ms.map fun m => m.declarations.countP (·.id = id)).sum := by
  unfold timesDeclared
  rw [List.countP_flatMap]
  rfl

/-- A type that is declared once has one declaration. -/
theorem filter_eq_of_timesDeclared {ms : List Module} {m : Module} {d : TypeDeclaration}
    (honce : timesDeclared ms d.id = 1) (hm : m ∈ ms) (hd : d ∈ m.declarations) :
    (ms.flatMap Module.declarations).filter (·.id = d.id) = [d] := by
  have hmem : d ∈ (ms.flatMap Module.declarations).filter (·.id = d.id) :=
    List.mem_filter.mpr ⟨List.mem_flatMap.mpr ⟨m, hm, hd⟩, by simp⟩
  unfold timesDeclared at honce
  rw [List.countP_eq_length_filter] at honce
  obtain ⟨only, honly⟩ := List.length_eq_one_iff.mp honce
  rw [honly] at hmem ⊢
  rw [List.mem_singleton.mp hmem]

/-! ## Faithful declarations are written with the wording -/

section Written

variable {g : Graph} {w : Wording}

/-- An option in a list of options that is `some` is among the values. -/
theorem mem_of_mem_reduceOption {α : Type} {xs : List (Option α)} {x : α}
    (h : x ∈ xs.reduceOption) : some x ∈ xs := by
  unfold List.reduceOption at h
  obtain ⟨y, hy, hyx⟩ := List.mem_filterMap.mp h
  exact (show y = some x from hyx) ▸ hy

/-- Members are written with the wording. -/
theorem spelledBy_of_members {α : Type} {raw : α → String} {type : α → TypeRef} {xs : List α}
    {members : List Parameter}
    (h : List.Forall₂ (fun x => MemberOf g w (raw x) (type x)) xs members) :
    ∀ e ∈ members.map Parameter.type, e.SpelledBy w := by
  intro e he
  obtain ⟨m, hm, rfl⟩ := List.mem_map.mp he
  obtain ⟨x, -, hx⟩ := exists_of_mem_right h hm
  exact hx.type.2

/-- Signatures are written with the wording. -/
theorem SignatureOf.spelledBy {f : Function} {ps : List Param} {s : Signature}
    (h : SignatureOf g w f ps s) : ∀ e ∈ s.expressions, e.SpelledBy w := by
  intro e he
  rcases List.mem_append.mp he with he | he
  · exact spelledBy_of_members h.params e he
  · obtain rfl := List.mem_singleton.mp he
    exact h.result.2

/-- Companions are written with the wording. -/
theorem CompanionOf.spelledBy {f : Function} {member : CompanionMember}
    (h : CompanionOf g w f (some member)) : ∀ e ∈ member.expressions, e.SpelledBy w := by
  cases h with
  | constructor _ hparams => exact spelledBy_of_members hparams
  | static _ hs => exact hs.spelledBy

/-- The content of a declared type is written with the wording. -/
theorem BodyOf.spelledBy {site : Site} {t : TypeDef} {body : TypeBody}
    (h : BodyOf g w site t body) : ∀ e ∈ body.expressions, e.SpelledBy w := by
  cases h with
  | record _ hmembers => exact spelledBy_of_members hmembers
  | variant _ hcases =>
    intro e he
    obtain ⟨d, hd, hpayload⟩ := List.mem_filterMap.mp he
    obtain ⟨c, -, hc⟩ := exists_of_mem_right hcases hd
    have hrel := hc.payload
    rw [hpayload] at hrel
    generalize c.payload = payload at hrel
    cases hrel with
    | some hwrites => exact hwrites.2
  | enumeration _ hlabels =>
    intro e he
    obtain ⟨d, hd, hpayload⟩ := List.mem_filterMap.mp he
    obtain ⟨l, -, hl⟩ := exists_of_mem_right hlabels hd
    rw [hl.payload] at hpayload
    cases hpayload
  | flags _ _ _ => exact fun e he => absurd he List.not_mem_nil
  | aliasOf _ hwrites =>
    intro e he
    obtain rfl := List.mem_singleton.mp he
    exact hwrites.2
  | resource _ _ _ _ _ hmethods hcompanion =>
    intro e he
    rcases List.mem_append.mp he with he | he
    · obtain ⟨s, hs, he⟩ := List.mem_flatMap.mp he
      obtain ⟨f, -, hf⟩ := exists_of_mem_right hmethods (mem_of_mem_reduceOption hs)
      cases hf with
      | method _ hsignature => exact hsignature.spelledBy e he
    · obtain ⟨member, hmember, he⟩ := List.mem_flatMap.mp he
      obtain ⟨f, -, hf⟩ := exists_of_mem_right hcompanion (mem_of_mem_reduceOption hmember)
      exact hf.spelledBy e he

end Written

namespace Assignment

variable {a : Assignment} {orderly : a.graph.Orderly} {s : Session} {m : Module} {w : Wording}
  {c : Content} {ds : List TypeDeclaration}

/-- A module declares its declarations, in some order. -/
theorem Declares.perm (h : a.Declares m w c ds) : m.declarations.Perm ds := by
  unfold Module.declarations
  rw [h.types, h.resources]
  exact List.perm_append_comm.trans (List.filter_append_perm _ ds)

/-- Declarations are for the types of the content. -/
theorem Declares.map_id (orderly : a.graph.Orderly) (h : a.Declares m w c ds) :
    ds.map TypeDeclaration.id = c.types := by
  refine List.forall₂_eq_eq_eq ▸ List.forall₂_map_left_iff.mpr (h.declared.flip.imp ?_)
  rintro d id ⟨t, site, ht, -, hd⟩
  rw [hd.id]
  exact orderly.typeDef_id ht

/-- **A type is declared as often as the content has it.** -/
theorem Declares.countP_eq (orderly : a.graph.Orderly) (h : a.Declares m w c ds) (id : Int) :
    m.declarations.countP (·.id = id) = c.types.count id := by
  rw [h.perm.countP_eq, ← h.map_id orderly, List.count, List.countP_map]
  rfl

/-- A type is declared when the content has it. -/
theorem Declares.declaresType_iff (orderly : a.graph.Orderly) (h : a.Declares m w c ds) {id : Int} :
    m.DeclaresType id ↔ id ∈ c.types := by
  rw [← h.map_id orderly, List.mem_map]
  exact exists_congr fun d => and_congr_left fun _ => h.perm.mem_iff

/-- A declaration is named after its type. -/
theorem Declares.named (orderly : a.graph.Orderly) (h : a.Declares m w c ds) {d : TypeDeclaration}
    (hd : d ∈ m.declarations) :
    ∃ t, a.graph.typeDef d.id = .ok t ∧ t.identifier = .ok d.name := by
  obtain ⟨id, -, t, site, ht, -, hdecl⟩ := exists_of_mem_right h.declared (h.perm.mem_iff.mp hd)
  refine ⟨t, ?_, hdecl.name⟩
  rw [hdecl.id, orderly.typeDef_id ht]
  exact ht

/-- **A module that declares its content is written with the wording.** -/
theorem Declares.spelledBy (h : a.Declares m w c ds) : m.SpelledBy w := by
  intro e he
  rcases List.mem_append.mp he with he | he
  · obtain ⟨d, hd, he⟩ := List.mem_flatMap.mp he
    obtain ⟨id, -, t, site, -, -, hdecl⟩ := exists_of_mem_right h.declared (h.perm.mem_iff.mp hd)
    exact hdecl.body.spelledBy e he
  · obtain ⟨d, hd, he⟩ := List.mem_flatMap.mp he
    obtain ⟨f, -, site, -, hf⟩ := exists_of_mem_right h.functions hd
    exact hf.signature.spelledBy e he

/-! ## References -/

/-- **How a type is referred to from a module**: plainly where it has no owner
or its owner declares its types in that very place, and in full elsewhere. -/
def referenceText (a : Assignment) (here : Location) (id : Int) : Except Fault String := do
  let t ← a.graph.typeDef id
  let name ← t.identifier
  match t.owner with
  | none => return name
  | some owner =>
    let location ← a.place owner
    return if location = here then name else location.memberPath name

/-- The references from a module, where there are any. -/
def wording (a : Assignment) (here : Location) : Wording :=
  fun id => (a.referenceText here id).toOption

/-- **A reference is made of the name of the type and the place of its owner.** -/
theorem wording_eq_some_iff {here : Location} {id : Int} {text : String} :
    a.wording here id = some text ↔ ∃ t name, a.graph.typeDef id = .ok t ∧ t.identifier = .ok name ∧
      (t.owner = none ∧ name = text ∨ ∃ owner location, t.owner = some owner ∧
        a.place owner = .ok location ∧
          (if location = here then name else location.memberPath name) = text) := by
  unfold wording
  rw [except_toOption_eq_some]
  simp only [referenceText, except_bind_eq_ok]
  constructor
  · rintro ⟨t, ht, name, hname, htext⟩
    refine ⟨t, name, ht, hname, ?_⟩
    cases howner : t.owner with
    | none =>
      rw [howner] at htext
      exact .inl ⟨rfl, except_pure_eq_ok.mp htext⟩
    | some owner =>
      simp only [howner, except_bind_eq_ok, except_pure_eq_ok] at htext
      obtain ⟨location, hplace, htext⟩ := htext
      exact .inr ⟨owner, location, rfl, hplace, htext⟩
  · rintro ⟨t, name, ht, hname, ⟨howner, rfl⟩ | ⟨owner, location, howner, hplace, rfl⟩⟩
    · exact ⟨t, ht, name, hname, by rw [howner]; rfl⟩
    · refine ⟨t, ht, name, hname, ?_⟩
      rw [howner]
      exact except_bind_eq_ok.mpr ⟨location, hplace, rfl⟩

/-- The placement of a run refers to types in this way. -/
theorem placement_wording (orderly : a.graph.Orderly) (granted : Int → Prop) (here : Location) :
    (a.placement orderly granted).wording (some here) = a.wording here := by
  funext id
  unfold Placement.wording wording Placement.referenceText referenceText
  simp only [Option.some.injEq]
  rfl

/-! ## Contents -/

/-- The module of an interface is to declare its types, in one direction. -/
theorem mem_types_interface {items : List (Direction × Scalar × WorldItem)} {j id : Int}
    {direction : Direction} :
    id ∈ (a.contentAfter items (.interface j direction)).types ↔
      a.directionOf j = direction ∧
        ∃ i, a.graph.interface j = .ok i ∧ id ∈ i.types.map Prod.snd := by
  unfold contentAfter interfaceContent
  cases hi : a.graph.interface j with
  | error e => simp [hi]
  | ok i =>
    by_cases hdirection : a.directionOf j = direction
    · simp [hi, hdirection]
    · simp [hi, hdirection]

/-- The module of the world is to declare the types that are listed in its
direction and belong there. -/
theorem mem_types_world {items : List (Direction × Scalar × WorldItem)} {id : Int}
    {direction : Direction} :
    id ∈ (a.contentAfter items (.world direction)).types ↔
      (∃ key, (direction, key, .type id) ∈ items) ∧ a.declaresHere direction id = true := by
  show id ∈ items.flatMap (a.typesOfItem direction) ↔ _
  constructor
  · intro hid
    obtain ⟨⟨itemDirection, key, item⟩, hitem, hid⟩ := List.mem_flatMap.mp hid
    cases item with
    | interface _ => exact absurd hid List.not_mem_nil
    | function _ => exact absurd hid List.not_mem_nil
    | type other =>
      simp only [typesOfItem] at hid
      split at hid
      · next hcond =>
        obtain rfl := List.mem_singleton.mp hid
        obtain ⟨rfl, hdeclares⟩ := hcond
        exact ⟨⟨key, hitem⟩, hdeclares⟩
      · exact absurd hid List.not_mem_nil
  · rintro ⟨⟨key, hitem⟩, hdeclares⟩
    refine List.mem_flatMap.mpr ⟨_, hitem, ?_⟩
    simp [typesOfItem, hdeclares]

/-- The module of an interface that the world lists is to declare its functions,
those of resources aside. -/
theorem mem_functions_interface {items : List (Direction × Scalar × WorldItem)} {j : Int}
    {direction : Direction} {f : Function} :
    f ∈ (a.contentAfter items (.interface j direction)).functions ↔
      (a.lists direction j = true ∧
        ∃ i, a.graph.interface j = .ok i ∧ f ∈ i.functions.map Prod.snd) ∧
      f.isFreestanding = true := by
  unfold contentAfter interfaceContent
  cases hi : a.graph.interface j with
  | error e => simp [hi]
  | ok i =>
    cases hlists : a.lists direction j with
    | true => simp [hi, hlists]
    | false => simp [hi, hlists]

/-- The module of the world is to declare the functions among the items of its
direction, those of resources aside. -/
theorem mem_functions_world {items : List (Direction × Scalar × WorldItem)}
    {direction : Direction} {f : Function} :
    f ∈ (a.contentAfter items (.world direction)).functions ↔
      (∃ key, (direction, key, .function f) ∈ items) ∧ f.isFreestanding = true := by
  show f ∈ items.flatMap (functionsOfItem direction) ↔ _
  constructor
  · intro hf
    obtain ⟨⟨itemDirection, key, item⟩, hitem, hf⟩ := List.mem_flatMap.mp hf
    cases item with
    | interface _ | type _ => exact absurd hf List.not_mem_nil
    | function other =>
      simp only [functionsOfItem] at hf
      split at hf
      · next hdirection =>
        obtain ⟨hother, hfree⟩ := List.mem_filter.mp hf
        obtain rfl := List.mem_singleton.mp hother
        exact ⟨⟨key, hdirection ▸ hitem⟩, hfree⟩
      · exact absurd hf List.not_mem_nil
  · rintro ⟨⟨key, hitem⟩, hfree⟩
    refine List.mem_flatMap.mpr ⟨_, hitem, ?_⟩
    simp [functionsOfItem, hfree]

namespace Finished

variable (h : a.Finished orderly s)
include h

/-- Modules are recognised by their keys. -/
theorem eq_of_key_eq {m m' : Module} (hm : m ∈ s.modules) (hm' : m' ∈ s.modules)
    (hkey : m.key = m'.key) : m = m' :=
  List.inj_on_of_nodup_map h.progress.kept.nodup hm hm' hkey

/-- The modules of a finished run declare what they should, and they are
written with the references that are on record. -/
theorem declares (hm : m ∈ s.modules) :
    ∃ ds, a.Declares m (s.wording m.location) (a.contentAfter a.items m.key) ds := by
  obtain ⟨ds, hds⟩ := h.progress.kept.declares m hm
  exact ⟨ds, hds _ (.refl _)⟩

/-- The references that are on record for a module are those from where it is,
so the modules declare what they should also in terms of these. -/
theorem declares_wording (hm : m ∈ s.modules) :
    ∃ ds, a.Declares m (a.wording m.location) (a.contentAfter a.items m.key) ds := by
  obtain ⟨ds, hds⟩ := h.progress.kept.declares m hm
  refine ⟨ds, hds _ ?_⟩
  rw [← placement_wording orderly NoGrant]
  exact h.progress.kept.coherent.extends_wording _

/-- **The modules of a finished run are written with the references from
where they are.** -/
theorem spelledBy (hm : m ∈ s.modules) : m.SpelledBy (a.wording m.location) := by
  obtain ⟨ds, hds⟩ := h.declares_wording hm
  exact hds.spelledBy

/-- **A type that is mentioned has a reference, and its owner was asked
for.** -/
theorem mentioned (hm : m ∈ s.modules) {id : Int} (hid : m.Mentions id) :
    (∃ text, a.wording m.location id = some text) ∧
      ∀ t o, a.graph.typeDef id = .ok t → t.owner = some o → a.Noted NoGrant o s := by
  obtain ⟨e, he, hname⟩ := hid
  obtain ⟨ds, hds⟩ := h.declares hm
  obtain ⟨text, htext⟩ :=
    Option.isSome_iff_exists.mp (Shape.isSome_of_spell _ (hds.spelledBy e he) id hname)
  refine ⟨⟨text, ?_⟩, fun t o ht ho => h.progress.kept.coherent.noted htext ht ho⟩
  rw [← placement_wording orderly NoGrant]
  exact h.progress.kept.coherent.extends_wording _ id text htext

/-- A module of a finished run declares the types of its content. -/
theorem declaresType_iff (hm : m ∈ s.modules) {id : Int} :
    m.DeclaresType id ↔ id ∈ (a.contentAfter a.items m.key).types := by
  obtain ⟨ds, hds⟩ := h.declares hm
  exact hds.declaresType_iff orderly

/-- **The declarations of a type are counted by counting the contents.** -/
theorem timesDeclared_eq (id : Int) :
    timesDeclared s.modules id
      = (s.opened.map fun key => (a.contentAfter a.items key).types.count id).sum := by
  rw [timesDeclared_eq_sum]
  unfold Session.opened
  rw [List.map_map]
  congr 1
  refine List.map_congr_left fun m hm => ?_
  obtain ⟨ds, hds⟩ := h.declares hm
  exact hds.countP_eq orderly id

/-- **A type that one module at most may declare** is declared as often as
that module has it. -/
theorem timesDeclared_of_only {id : Int} {key : ModuleKey}
    (honly : ∀ key' ∈ s.opened, id ∈ (a.contentAfter a.items key').types → key' = key) :
    timesDeclared s.modules id
      = if key ∈ s.opened then (a.contentAfter a.items key).types.count id else 0 := by
  rw [h.timesDeclared_eq, List.sum_map_eq_nsmul_single key _ fun key' hne hkey' => ?_]
  · by_cases hkey : key ∈ s.opened
    · rw [if_pos hkey, List.count_eq_one_of_mem h.progress.kept.nodup hkey, one_nsmul]
    · rw [if_neg hkey, List.count_eq_zero_of_not_mem hkey, zero_nsmul]
  · exact List.count_eq_zero_of_not_mem fun hid => hne (honly key' hkey' hid)

end Finished

end Assignment

end ComponentBindings
