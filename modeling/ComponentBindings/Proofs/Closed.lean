import ComponentBindings.Proofs.Decoded

/-!
# Graphs without loose ends

An id is a position in an arena, and a graph is full of ids: packages name
their interfaces and worlds by them, types their owners and their parts,
worlds their items. `Graph.Stores` lists every place of a graph in which an
id stands, with the arena that the id is meant for. A graph is closed when
each of these ids is a position of its arena, and when whatever is meant to be
a resource is one (`Graph.Closed`).

The check that a graph goes through when it is read walks the same places in
its own order, and by other means: it goes by the parts of a kind, where
`Graph.Stores` goes by the kinds. `Graph.checkClosed_eq_ok_iff` says that the
two agree. The check passes exactly the closed graphs, so no place has been
forgotten in it, and none is checked that need not be.
-/

namespace ComponentBindings

/-! ## Walking without a state -/

/-- A walk over a list succeeds when it succeeds at every item. -/
theorem except_forM_eq_ok {ε α : Type} {f : α → Except ε Unit} {xs : List α} {u : Unit} :
    xs.forM f = .ok u ↔ ∀ x ∈ xs, f x = .ok () := by
  induction xs with
  | nil => simp [List.forM, pure, Except.pure]
  | cons x xs ih =>
    show (f x >>= fun _ => xs.forM f) = _ ↔ _
    rw [except_bind_eq_ok, List.forall_mem_cons]
    simp only [ih]
    exact ⟨fun ⟨_, hx, hxs⟩ => ⟨hx, hxs⟩, fun ⟨hx, hxs⟩ => ⟨(), hx, hxs⟩⟩

/-- A step that is taken where there is a value succeeds when it does there. -/
theorem except_option_forM_eq_ok {ε α : Type} {f : α → Except ε Unit} {o : Option α} {u : Unit} :
    o.forM f = .ok u ↔ ∀ x, o = some x → f x = .ok () := by
  cases o with
  | none => simp [Option.forM, pure, Except.pure]
  | some x => simp [Option.forM]

/-- An entry is found at the positions of an arena. -/
theorem isSome_entryAt {α : Type} {arena : List α} {id : Int} :
    (entryAt arena id).isSome = true ↔ 0 ≤ id ∧ id < arena.length := by
  unfold entryAt
  split
  · rw [isSome_getElem?]
    omega
  · simp only [Option.isSome_none, Bool.false_eq_true, false_iff]
    omega

namespace Graph

/-! ## Every id of a graph -/

/-- How many entries an arena has. -/
def size (g : Graph) : Arena → Nat
  | .packages => g.packages.length
  | .interfaces => g.interfaces.length
  | .types => g.types.length
  | .worlds => g.worlds.length

/-- An id is a position of an arena. -/
def Has (g : Graph) (arena : Arena) (id : Int) : Prop := 0 ≤ id ∧ id < g.size arena

/-- An id is the position of a resource. -/
def HasResource (g : Graph) (id : Int) : Prop := ∃ t, g.typeDef id = .ok t ∧ t.kind = .resource

/-- A function that an interface lists, or a world among its items. -/
inductive HasFunction (g : Graph) (f : Function) : Prop
  /-- An interface lists the function. -/
  | interface {i : Interface} {key : Scalar} : i ∈ g.interfaces → (key, f) ∈ i.functions →
    HasFunction g f
  /-- A world lists the function. -/
  | world {w : World} {key : Scalar} : w ∈ g.worlds →
    (key, .function f) ∈ w.imports ++ w.exports → HasFunction g f

/-- **A place in which an id stands**, with the arena that it is meant for. -/
inductive Stores (g : Graph) : Arena → Int → Prop
  /-- An interface of a package. -/
  | packageInterface {p : Package} {name : Scalar} {id : Int} : p ∈ g.packages →
    (name, id) ∈ p.interfaces → Stores g .interfaces id
  /-- A world of a package. -/
  | packageWorld {p : Package} {name : Scalar} {id : Int} : p ∈ g.packages →
    (name, id) ∈ p.worlds → Stores g .worlds id
  /-- The package of an interface. -/
  | interfacePackage {i : Interface} {id : Int} : i ∈ g.interfaces → i.package = some id →
    Stores g .packages id
  /-- A type of an interface. -/
  | interfaceType {i : Interface} {name : Scalar} {id : Int} : i ∈ g.interfaces →
    (name, id) ∈ i.types → Stores g .types id
  /-- The type of a parameter. -/
  | param {f : Function} {p : Param} {id : Int} : g.HasFunction f → p ∈ f.params →
    p.type = .defined id → Stores g .types id
  /-- The type of a result. -/
  | result {f : Function} {id : Int} : g.HasFunction f → .defined id ∈ f.results →
    Stores g .types id
  /-- The resource that a function belongs to. -/
  | attachment {f : Function} {id : Int} : g.HasFunction f → f.attachment.resource? = some id →
    Stores g .types id
  /-- The interface that owns a type. -/
  | ownerInterface {t : TypeDef} {id : Int} : t ∈ g.types → t.owner = some (.interface id) →
    Stores g .interfaces id
  /-- The world that owns a type. -/
  | ownerWorld {t : TypeDef} {id : Int} : t ∈ g.types → t.owner = some (.world id) →
    Stores g .worlds id
  /-- The type of a field. -/
  | field {t : TypeDef} {fields : List Field} {f : Field} {id : Int} : t ∈ g.types →
    t.kind = .record fields → f ∈ fields → f.type = .defined id → Stores g .types id
  /-- The type of what a case carries. -/
  | payload {t : TypeDef} {cases : List Case} {c : Case} {id : Int} : t ∈ g.types →
    t.kind = .variant cases → c ∈ cases → c.payload = some (.defined id) → Stores g .types id
  /-- The resource behind a handle. -/
  | handle {t : TypeDef} {id : Int} {borrowed : Bool} : t ∈ g.types →
    t.kind = .handle id borrowed → Stores g .types id
  /-- What a type is another name of. -/
  | target {t : TypeDef} {id : Int} : t ∈ g.types → t.kind = .aliasOf (.defined id) →
    Stores g .types id
  /-- The elements of a list. -/
  | listElement {t : TypeDef} {id : Int} : t ∈ g.types → t.kind = .list (.defined id) →
    Stores g .types id
  /-- What may be absent. -/
  | optionElement {t : TypeDef} {id : Int} : t ∈ g.types → t.kind = .option (.defined id) →
    Stores g .types id
  /-- The success of a result. -/
  | ok {t : TypeDef} {id : Int} {err : Option TypeRef} : t ∈ g.types →
    t.kind = .result (some (.defined id)) err → Stores g .types id
  /-- The failure of a result. -/
  | err {t : TypeDef} {id : Int} {ok : Option TypeRef} : t ∈ g.types →
    t.kind = .result ok (some (.defined id)) → Stores g .types id
  /-- An item of a tuple. -/
  | item {t : TypeDef} {items : List TypeRef} {id : Int} : t ∈ g.types →
    t.kind = .tuple items → .defined id ∈ items → Stores g .types id
  /-- What arrives later. -/
  | futureElement {t : TypeDef} {id : Int} : t ∈ g.types →
    t.kind = .future (some (.defined id)) → Stores g .types id
  /-- What arrives one by one. -/
  | streamElement {t : TypeDef} {id : Int} : t ∈ g.types →
    t.kind = .stream (some (.defined id)) → Stores g .types id
  /-- The package of a world. -/
  | worldPackage {w : World} {id : Int} : w ∈ g.worlds → w.package = some id →
    Stores g .packages id
  /-- An interface among the items of a world. -/
  | worldInterface {w : World} {key : Scalar} {id : Int} : w ∈ g.worlds →
    (key, .interface id) ∈ w.imports ++ w.exports → Stores g .interfaces id
  /-- A type among the items of a world. -/
  | worldType {w : World} {key : Scalar} {id : Int} : w ∈ g.worlds →
    (key, .type id) ∈ w.imports ++ w.exports → Stores g .types id

/-- A place in which the id of a resource is meant: behind a handle, and where
a function belongs to a resource. -/
inductive StoresResource (g : Graph) (id : Int) : Prop
  /-- The resource behind a handle. -/
  | handle {t : TypeDef} {borrowed : Bool} : t ∈ g.types → t.kind = .handle id borrowed →
    StoresResource g id
  /-- The resource that a function belongs to. -/
  | attachment {f : Function} : g.HasFunction f → f.attachment.resource? = some id →
    StoresResource g id

/-- **A closed graph**: every id in it is a position of its arena, and what is
meant to be a resource is one. -/
structure Closed (g : Graph) : Prop where
  /-- Every id is a position of its arena. -/
  has : ∀ {arena id}, g.Stores arena id → g.Has arena id
  /-- What is meant to be a resource is one. -/
  hasResource : ∀ {id}, g.StoresResource id → g.HasResource id

variable {g : Graph}

/-! ## Looking up -/

/-- An entry is found at the positions of an arena, whatever a look-up that
misses would say. -/
theorem exists_of_lookup {α : Type} {arena : List α} {id : Int} {fault : Fault}
    (h : 0 ≤ id ∧ id < arena.length) :
    ∃ x ∈ arena, (entryAt arena id).elim (.error fault) Except.ok = .ok x := by
  obtain ⟨x, hx⟩ := Option.isSome_iff_exists.mp (isSome_entryAt.mpr h)
  refine ⟨x, List.mem_of_getElem? (getElem?_of_entryAt hx).1, ?_⟩
  rw [hx]
  rfl

/-- What is found in an arena is one of its entries. -/
theorem mem_of_lookup {α : Type} {arena : List α} {id : Int} {fault : Fault} {x : α}
    (h : (entryAt arena id).elim (.error fault) Except.ok = .ok x) : x ∈ arena :=
  List.mem_of_getElem? (getElem?_of_entryAt (entryAt_of_elim_eq_ok h)).1

/-- A type is found at the positions of the types. -/
theorem exists_typeDef {id : Int} (h : g.Has .types id) : ∃ t ∈ g.types, g.typeDef id = .ok t :=
  exists_of_lookup h

/-- There it is not missed. -/
theorem typeDef_ne_error {id : Int} {fault : Fault} (h : g.Has .types id) :
    g.typeDef id ≠ .error fault := by
  obtain ⟨t, -, ht⟩ := exists_typeDef h
  simp [ht]

/-- Nothing is found elsewhere. -/
theorem typeDef_of_not_has {id : Int} (h : ¬ g.Has .types id) :
    g.typeDef id = .error (.dangling .types id none) := by
  have hnone : entryAt g.types id = none := by
    by_contra hsome
    exact h (isSome_entryAt.mp (Option.isSome_iff_ne_none.mpr hsome))
  rw [typeDef, hnone]
  rfl

/-- An interface is found at the positions of the interfaces. -/
theorem exists_interface {id : Int} (h : g.Has .interfaces id) :
    ∃ i ∈ g.interfaces, g.interface id = .ok i :=
  exists_of_lookup h

/-- A package is found at the positions of the packages. -/
theorem exists_package {id : Int} (h : g.Has .packages id) :
    ∃ p ∈ g.packages, g.package id = .ok p :=
  exists_of_lookup h

/-- A world is found at the positions of the worlds. -/
theorem exists_world {id : Int} (h : g.Has .worlds id) : ∃ w ∈ g.worlds, g.world id = .ok w :=
  exists_of_lookup h

/-- A type that is found is one of the types. -/
theorem mem_of_typeDef {id : Int} {t : TypeDef} (h : g.typeDef id = .ok t) : t ∈ g.types :=
  mem_of_lookup h

/-- An interface that is found is one of the interfaces. -/
theorem mem_of_interface {id : Int} {i : Interface} (h : g.interface id = .ok i) :
    i ∈ g.interfaces :=
  mem_of_lookup h

/-! ## What the parts of the check establish -/

section Checks

variable {context : String} {u : Unit}

/-- A checked id is a position. -/
theorem checkEntry_eq_ok {α : Type} {arena : Arena} {entries : List α} {id : Int} :
    checkEntry arena entries id context = .ok u ↔ 0 ≤ id ∧ id < entries.length := by
  unfold checkEntry
  rw [← (isSome_entryAt : (entryAt entries id).isSome = true ↔ _)]
  split <;> simp_all

/-- A checked reference is a primitive or the position of a type. -/
theorem checkRef_eq_ok {ref : TypeRef} :
    g.checkRef context ref = .ok u ↔ ∀ id, ref = .defined id → g.Has .types id := by
  cases ref with
  | primitive p => simp [checkRef]
  | defined id =>
    rw [checkRef, checkEntry_eq_ok]
    simp only [TypeRef.defined.injEq, forall_eq']
    rfl

/-- A checked resource is one. -/
theorem checkResource_eq_ok {id : Int} :
    g.checkResource context id = .ok u ↔ g.HasResource id := by
  unfold checkResource HasResource typeDef
  cases entryAt g.types id with
  | none => simp
  | some t => simp only [Option.elim_some, Except.ok.injEq, exists_eq_left']; split <;> simp_all

/-- A checked function has types at the positions of types, and belongs to a
resource if to anything. -/
theorem checkFunction_eq_ok {f : Function} :
    g.checkFunction context f = .ok u ↔
      (∀ p ∈ f.params, ∀ id, p.type = .defined id → g.Has .types id) ∧
      (∀ id, .defined id ∈ f.results → g.Has .types id) ∧
      ∀ id, f.attachment.resource? = some id → g.HasResource id := by
  simp only [checkFunction, except_bind_eq_ok, except_forM_eq_ok, except_option_forM_eq_ok,
    checkRef_eq_ok, checkResource_eq_ok]
  constructor
  · rintro ⟨_, hparams, _, hresults, hresource⟩
    exact ⟨hparams, fun id hid => hresults _ hid id rfl, hresource⟩
  · rintro ⟨hparams, hresults, hresource⟩
    exact ⟨(), hparams, (), fun ref href id hid => hresults id (hid ▸ href), hresource⟩

/-- A checked package names interfaces and worlds. -/
theorem checkPackage_eq_ok {p : Package} :
    g.checkPackage p = .ok u ↔ (∀ entry ∈ p.interfaces, g.Has .interfaces entry.2) ∧
      ∀ entry ∈ p.worlds, g.Has .worlds entry.2 := by
  simp only [checkPackage, except_bind_eq_ok, except_forM_eq_ok, checkEntry_eq_ok, exists_const]
  rfl

/-- A checked interface has its package, its types and its functions. -/
theorem checkInterface_eq_ok {i : Interface} :
    g.checkInterface i = .ok u ↔ (∀ id, i.package = some id → g.Has .packages id) ∧
      (∀ entry ∈ i.types, g.Has .types entry.2) ∧
      ∀ entry ∈ i.functions, ∀ context, g.checkFunction context entry.2 = .ok () := by
  simp only [checkInterface, except_bind_eq_ok, except_forM_eq_ok, except_option_forM_eq_ok,
    checkEntry_eq_ok, checkFunction_eq_ok, exists_const, forall_const]
  rfl

/-- A checked owner is there. -/
theorem checkOwner_eq_ok {owner : TypeOwner} :
    g.checkOwner context owner = .ok u ↔
      (∀ id, owner = .interface id → g.Has .interfaces id) ∧
      ∀ id, owner = .world id → g.Has .worlds id := by
  cases owner with
  | interface id =>
    rw [checkOwner, checkEntry_eq_ok]
    simp only [TypeOwner.interface.injEq, forall_eq', reduceCtorEq, false_implies, implies_true,
      and_true]
    rfl
  | world id =>
    rw [checkOwner, checkEntry_eq_ok]
    simp only [TypeOwner.world.injEq, forall_eq', reduceCtorEq, false_implies, implies_true,
      true_and]
    rfl

/-- A handle is closed if it is on a resource. -/
theorem checkHandle_eq_ok {context : String} {kind : TypeKind} :
    (match kind with
      | .handle resource _ => g.checkResource context resource
      | _ => pure ()) = .ok u ↔ ∀ id borrowed, kind = .handle id borrowed → g.HasResource id := by
  cases kind <;> simp [checkResource_eq_ok]

/-- A checked type has its owner and its parts. -/
theorem checkTypeDef_eq_ok {t : TypeDef} :
    g.checkTypeDef t = .ok u ↔ (∀ id, t.owner = some (.interface id) → g.Has .interfaces id) ∧
      (∀ id, t.owner = some (.world id) → g.Has .worlds id) ∧
      (∀ id, .defined id ∈ t.kind.parts → g.Has .types id) ∧
      ∀ id borrowed, t.kind = .handle id borrowed → g.HasResource id := by
  simp only [checkTypeDef, except_bind_eq_ok, except_forM_eq_ok, except_option_forM_eq_ok,
    checkOwner_eq_ok, checkRef_eq_ok, exists_const]
  constructor
  · rintro ⟨howner, hparts, hresource⟩
    exact ⟨fun id h => (howner _ h).1 id rfl, fun id h => (howner _ h).2 id rfl,
      fun id h => hparts _ h id rfl, checkHandle_eq_ok.mp hresource⟩
  · rintro ⟨hinterface, hworld, hparts, hresource⟩
    refine ⟨fun owner h => ⟨?_, ?_⟩, ?_, checkHandle_eq_ok.mpr hresource⟩
    · rintro id rfl
      exact hinterface id h
    · rintro id rfl
      exact hworld id h
    · rintro ref h id rfl
      exact hparts id h

/-- A checked item of a world is there. -/
theorem checkItem_eq_ok {item : WorldItem} :
    g.checkItem context item = .ok u ↔ (∀ id, item = .interface id → g.Has .interfaces id) ∧
      (∀ id, item = .type id → g.Has .types id) ∧
      ∀ f, item = .function f → g.checkFunction context f = .ok () := by
  cases item with
  | interface id =>
    rw [checkItem, checkEntry_eq_ok]
    simp only [WorldItem.interface.injEq, forall_eq', reduceCtorEq, false_implies, implies_true,
      and_true]
    rfl
  | type id =>
    rw [checkItem, checkEntry_eq_ok]
    simp only [WorldItem.type.injEq, forall_eq', reduceCtorEq, false_implies, implies_true,
      and_true, true_and]
    rfl
  | function f => simp [checkItem]

/-- A checked world has its package and its items. -/
theorem checkWorld_eq_ok {w : World} :
    g.checkWorld w = .ok u ↔ (∀ id, w.package = some id → g.Has .packages id) ∧
      (∀ key id, (key, .interface id) ∈ w.imports ++ w.exports → g.Has .interfaces id) ∧
      (∀ key id, (key, .type id) ∈ w.imports ++ w.exports → g.Has .types id) ∧
      ∀ key f, (key, .function f) ∈ w.imports ++ w.exports →
        ∀ context, g.checkFunction context f = .ok () := by
  simp only [checkWorld, except_bind_eq_ok, except_forM_eq_ok, except_option_forM_eq_ok,
    checkEntry_eq_ok, checkItem_eq_ok, checkFunction_eq_ok, exists_const, forall_const]
  constructor
  · rintro ⟨hpackage, hitems⟩
    exact ⟨hpackage, fun key id h => (hitems _ h).1 id rfl, fun key id h => (hitems _ h).2.1 id rfl,
      fun key f h => (hitems _ h).2.2 f rfl⟩
  · rintro ⟨hpackage, hinterface, htype, hfunction⟩
    refine ⟨hpackage, fun entry h => ⟨?_, ?_, ?_⟩⟩
    · rintro id hid
      exact hinterface entry.1 id (hid ▸ h)
    · rintro id hid
      exact htype entry.1 id (hid ▸ h)
    · rintro f hf
      exact hfunction entry.1 f (hf ▸ h)

end Checks

/-- What is found stands at a position of the types. -/
theorem has_of_typeDef {id : Int} {t : TypeDef} (ht : g.typeDef id = .ok t) : g.Has .types id :=
  isSome_entryAt.mp (Option.isSome_of_eq_some (entryAt_of_elim_eq_ok ht))

/-- A resource stands at a position of the types. -/
theorem HasResource.has {id : Int} (h : g.HasResource id) : g.Has .types id := by
  obtain ⟨t, ht, -⟩ := h
  exact has_of_typeDef ht

/-- **The parts of a kind are the types that its places name.** -/
theorem stores_of_mem_parts {t : TypeDef} {id : Int} (ht : t ∈ g.types)
    (h : .defined id ∈ t.kind.parts) : g.Stores .types id := by
  cases hkind : t.kind with
  | record fields =>
    rw [hkind] at h
    obtain ⟨f, hf, htype⟩ := List.mem_map.mp h
    exact .field ht hkind hf htype
  | variant cases =>
    rw [hkind] at h
    obtain ⟨c, hc, hpayload⟩ := List.mem_filterMap.mp h
    exact .payload ht hkind hc hpayload
  | aliasOf target =>
    rw [hkind] at h
    obtain rfl := List.mem_singleton.mp h
    exact .target ht hkind
  | list element =>
    rw [hkind] at h
    obtain rfl := List.mem_singleton.mp h
    exact .listElement ht hkind
  | option element =>
    rw [hkind] at h
    obtain rfl := List.mem_singleton.mp h
    exact .optionElement ht hkind
  | result ok err =>
    rw [hkind] at h
    rcases List.mem_append.mp h with h | h
    · obtain rfl := Option.mem_toList.mp h
      exact .ok ht hkind
    · obtain rfl := Option.mem_toList.mp h
      exact .err ht hkind
  | tuple items =>
    rw [hkind] at h
    exact .item ht hkind h
  | future element =>
    rw [hkind] at h
    obtain rfl := Option.mem_toList.mp h
    exact .futureElement ht hkind
  | stream element =>
    rw [hkind] at h
    obtain rfl := Option.mem_toList.mp h
    exact .streamElement ht hkind
  | enumeration _ | flags _ | resource | handle _ _ =>
    rw [hkind] at h
    exact absurd h List.not_mem_nil

/-- The functions of a graph pass their check when the graph is closed. -/
theorem Closed.checkFunction (h : g.Closed) {f : Function} (hf : g.HasFunction f)
    (context : String) : g.checkFunction context f = .ok () :=
  checkFunction_eq_ok.mpr ⟨fun _ hp _ hid => h.has (.param hf hp hid),
    fun _ hid => h.has (.result hf hid), fun _ hid => h.hasResource (.attachment hf hid)⟩

/-- **The check passes exactly the closed graphs.** -/
theorem checkClosed_eq_ok_iff : g.checkClosed = .ok () ↔ g.Closed := by
  simp only [checkClosed, except_bind_eq_ok, except_forM_eq_ok, checkPackage_eq_ok,
    checkInterface_eq_ok, checkTypeDef_eq_ok, checkWorld_eq_ok, exists_const]
  constructor
  · rintro ⟨hpackages, hinterfaces, htypes, hworlds⟩
    have hfunctions : ∀ f, g.HasFunction f → g.checkFunction "" f = .ok () := by
      rintro f (⟨hi, hf⟩ | ⟨hw, hf⟩)
      · exact (hinterfaces _ hi).2.2 _ hf ""
      · exact (hworlds _ hw).2.2.2 _ f hf ""
    refine ⟨fun hstores => ?_, fun hstores => ?_⟩
    · cases hstores with
      | packageInterface hp hid => exact (hpackages _ hp).1 _ hid
      | packageWorld hp hid => exact (hpackages _ hp).2 _ hid
      | interfacePackage hi hid => exact (hinterfaces _ hi).1 _ hid
      | interfaceType hi hid => exact (hinterfaces _ hi).2.1 _ hid
      | param hf hp hid => exact (checkFunction_eq_ok.mp (hfunctions _ hf)).1 _ hp _ hid
      | result hf hid => exact (checkFunction_eq_ok.mp (hfunctions _ hf)).2.1 _ hid
      | attachment hf hid => exact ((checkFunction_eq_ok.mp (hfunctions _ hf)).2.2 _ hid).has
      | ownerInterface ht hid => exact (htypes _ ht).1 _ hid
      | ownerWorld ht hid => exact (htypes _ ht).2.1 _ hid
      | handle ht hkind => exact ((htypes _ ht).2.2.2 _ _ hkind).has
      | field ht hkind hf hid =>
        exact (htypes _ ht).2.2.1 _ (by rw [hkind]; exact List.mem_map.mpr ⟨_, hf, hid⟩)
      | payload ht hkind hc hid =>
        exact (htypes _ ht).2.2.1 _ (by rw [hkind]; exact List.mem_filterMap.mpr ⟨_, hc, hid⟩)
      | item ht hkind hid => exact (htypes _ ht).2.2.1 _ (by rw [hkind]; exact hid)
      | target ht hkind | listElement ht hkind | optionElement ht hkind | ok ht hkind
      | err ht hkind | futureElement ht hkind | streamElement ht hkind =>
        exact (htypes _ ht).2.2.1 _ (by rw [hkind]; simp [TypeKind.parts])
      | worldPackage hw hid => exact (hworlds _ hw).1 _ hid
      | worldInterface hw hid => exact (hworlds _ hw).2.1 _ _ hid
      | worldType hw hid => exact (hworlds _ hw).2.2.1 _ _ hid
    · cases hstores with
      | handle ht hkind => exact (htypes _ ht).2.2.2 _ _ hkind
      | attachment hf hid => exact (checkFunction_eq_ok.mp (hfunctions _ hf)).2.2 _ hid
  · intro h
    refine ⟨fun p hp => ⟨?_, ?_⟩, fun i hi => ⟨?_, ?_, ?_⟩, fun t ht => ⟨?_, ?_, ?_, ?_⟩,
      fun w hw => ⟨?_, ?_, ?_, ?_⟩⟩
    · exact fun entry hentry => h.has (.packageInterface hp hentry)
    · exact fun entry hentry => h.has (.packageWorld hp hentry)
    · exact fun id hid => h.has (.interfacePackage hi hid)
    · exact fun entry hentry => h.has (.interfaceType hi hentry)
    · exact fun entry hentry => h.checkFunction (.interface hi hentry)
    · exact fun id hid => h.has (.ownerInterface ht hid)
    · exact fun id hid => h.has (.ownerWorld ht hid)
    · exact fun id hid => h.has (stores_of_mem_parts ht hid)
    · exact fun id borrowed hkind => h.hasResource (.handle ht hkind)
    · exact fun id hid => h.has (.worldPackage hw hid)
    · exact fun key id hid => h.has (.worldInterface hw hid)
    · exact fun key id hid => h.has (.worldType hw hid)
    · exact fun key f hf => h.checkFunction (.world hw hf)

/-- **A graph that is read from a document is closed.** -/
theorem closed_of_ofDocument {document : Document} (h : Graph.ofDocument document = .ok g) :
    g.Closed := by
  unfold Graph.ofDocument at h
  split at h
  · have hobject := mapError_eq_ok h
    simp only [Graph.ofObject, except_bind_eq_ok, except_pure_eq_ok] at hobject
    obtain ⟨_, -, _, -, _, -, _, -, _, hcheck, rfl⟩ := hobject
    exact checkClosed_eq_ok_iff.mp hcheck
  · cases h

end Graph

end ComponentBindings
