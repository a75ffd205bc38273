import ComponentBindings.Proofs.WorldTypes

/-!
# What is declared side by side

The identifiers of a module stand in many scopes: its types in one, its
functions in another, and below each declaration the members and parameters
that belong to it. `Module.scopes` lists the identifiers of a module scope by
scope, and `Assignment.listsOf` the lists of the document that they come from,
in the same order.

The claims of a run keep different names apart and let one name repeat its own
claim. So a scope of a returned module repeats an identifier exactly when its
list repeats a name (`scopes_nodup_iff`), and nothing else can make it do so:
no case conversion, no escaped keyword, and not the operation `close` that a
resource has without a name for it. But lists do repeat names. A world may list
one type under two keys, and then its module declares the type twice
(`not_nodup_scopes`).
-/

namespace ComponentBindings

/-! ## Identifiers and names, scope by scope -/

/-- The parameters of a member of a companion. -/
def CompanionMember.params : CompanionMember → List Parameter
  | .constructor params _ => params
  | .static s => s.params

/-- The identifier of a static function. All constructors share one. -/
def CompanionMember.static? : CompanionMember → Option String
  | .constructor _ _ => none
  | .static s => some s.name

/-- The identifiers that the content of a declared type declares, scope by
scope. The methods of a resource stand beside the operation that disposes of a
handle. -/
def TypeBody.scopes : TypeBody → List (List String)
  | .record fields => [fields.map Parameter.name]
  | .variant cases => [cases.map CaseDeclaration.name]
  | .flags _ names => [names]
  | .aliasOf _ => []
  | .resource _ _ methods companion =>
    (methods.map Signature.name ++ ["close"]) :: companion.filterMap CompanionMember.static? ::
      (methods.map (fun s => s.params.map Parameter.name) ++
        companion.map fun member => member.params.map Parameter.name)

/-- **The identifiers of a module, scope by scope.** -/
def Module.scopes (m : Module) : List (List String) :=
  m.declarations.map TypeDeclaration.name :: m.functions.map (·.signature.name) ::
    (m.declarations.flatMap (·.body.scopes) ++
      m.functions.map fun f => f.signature.params.map Parameter.name)

/-- The lists of names behind the scopes of a resource with given functions. -/
def listsOfResource (functions : List Function) : List (List String) :=
  let methods := functions.filter Function.isMethod
  let companion := functions.filter Function.isCompanion
  methods.map Function.name :: (functions.filter Function.isStatic).map Function.name ::
    (methods.map (fun f => (Renderer.withoutReceiver f.params).map Param.name) ++
      companion.map fun f => f.params.map Param.name)

/-- The lists of names behind the scopes of a declared type. -/
def Graph.listsOfType (g : Graph) (t : TypeDef) : List (List String) :=
  match t.kind with
  | .record fields => [fields.map Field.name]
  | .variant cases => [cases.map Case.name]
  | .enumeration labels => [labels.map Label.name]
  | .flags names => [names]
  | .resource => (g.resourceFunctions t.id).toOption.elim [] listsOfResource
  | _ => []

/-- The name of a type. -/
def Graph.nameOf (g : Graph) (id : Int) : Option String :=
  (g.typeDef id).toOption.bind TypeDef.name

/-- **The lists of names behind the scopes of a module**: of the types it
declares, of the functions it is to declare, and of what belongs to these. -/
def Assignment.listsOf (a : Assignment) (m : Module) : List (List String) :=
  let functions := (a.contentAfter a.items m.key).functions
  m.declarations.filterMap (fun d => a.graph.nameOf d.id) :: functions.map Function.name ::
    (m.declarations.flatMap (fun d =>
        (a.graph.typeDef d.id).toOption.elim [] a.graph.listsOfType) ++
      functions.map fun f => f.params.map Param.name)

/-- A scope repeats an identifier when a list repeats a name. -/
def RepeatsAs (names raws : List String) : Prop := names.Nodup ↔ raws.Nodup

/-! ## Names that are held repeat as their identifiers do -/

/-- No method is declared as the operation that disposes of a handle. -/
theorem SignatureHeld.name_ne_close {claims : Claims} {scope : String} {f : Function}
    {ps : List Param} {s : Signature} (h : SignatureHeld claims scope f ps s)
    (hclose : claims.holder? scope "close" = some "<drop>") : s.name ≠ "close" := by
  intro hname
  have hholder := h.name.holder
  rw [hname, hclose] at hholder
  have hidentifier := h.name.identifier
  rw [← Option.some.inj hholder, hname] at hidentifier
  have hdrop : identifierOf .member "<drop>" = .ok "<drop>" := rfl
  rw [hdrop] at hidentifier
  exact absurd (Except.ok.inj hidentifier) (by decide)

/-- The operation that disposes of a handle is not among the methods. -/
theorem close_not_mem {claims : Claims} {scope : String} {functions : List Function}
    {ps : Function → List Param} {methods : List Signature}
    (hmethods : List.Forall₂ (fun f => SignatureHeld claims scope f (ps f)) functions methods)
    (hclose : claims.holder? scope "close" = some "<drop>") :
    "close" ∉ methods.map Signature.name := by
  intro hmem
  obtain ⟨s, hs, hname⟩ := List.mem_map.mp hmem
  obtain ⟨f, -, hf⟩ := exists_of_mem_right hmethods hs
  exact hf.name_ne_close hclose hname

/-- **Methods repeat an identifier when their names repeat**, also beside the
operation that disposes of a handle. -/
theorem repeatsAs_methods {claims : Claims} {scope : String} {functions : List Function}
    {ps : Function → List Param} {methods : List Signature}
    (hmethods : List.Forall₂ (fun f => SignatureHeld claims scope f (ps f)) functions methods)
    (hclose : claims.holder? scope "close" = some "<drop>") :
    RepeatsAs (methods.map Signature.name ++ ["close"]) (functions.map Function.name) := by
  have hheld : claims.HoldsAll .member scope (functions.map Function.name)
      (methods.map Signature.name) :=
    List.forall₂_map_left_iff.mpr <| List.forall₂_map_right_iff.mpr <|
      hmethods.imp fun _ _ h => h.name
  show (_ ++ ["close"]).Nodup ↔ _
  rw [← List.concat_eq_append, ← hheld.nodup_iff, List.nodup_concat]
  exact and_iff_right (close_not_mem hmethods hclose)

/-- The parameters of signatures repeat as those of their functions do. -/
theorem repeatsAs_params {claims : Claims} {scope : String} {functions : List Function}
    {ps : Function → List Param} {signatures : List Signature}
    (h : List.Forall₂ (fun f => SignatureHeld claims scope f (ps f)) functions signatures) :
    List.Forall₂ RepeatsAs (signatures.map fun s => s.params.map Parameter.name)
      (functions.map fun f => (ps f).map Param.name) :=
  List.forall₂_map_left_iff.mpr <| List.forall₂_map_right_iff.mpr <|
    h.flip.imp fun _ _ hf => hf.params.nodup_iff

/-- The static functions of a companion repeat an identifier when their names
repeat. -/
theorem repeatsAs_statics {claims : Claims} {scope : String} {functions : List Function}
    {companion : List CompanionMember}
    (h : List.Forall₂ (CompanionHeld claims scope) (functions.filter Function.isCompanion)
      companion) :
    RepeatsAs (companion.filterMap CompanionMember.static?)
      ((functions.filter Function.isStatic).map Function.name) := by
  have hstatics : List.Forall₂ (fun f name => claims.Holds .member scope f.name name)
      ((functions.filter Function.isCompanion).filter Function.isStatic)
      (companion.filterMap CompanionMember.static?) := by
    refine forall₂_filter_filterMap h (fun {f member name} hheld hpick => ?_)
      fun {f member} hheld hpick => ?_
    · cases hheld with
      | constructor _ _ => cases hpick
      | static hattachment hs =>
        obtain rfl := Option.some.inj hpick
        exact ⟨by simp [Function.isStatic, hattachment], hs.name⟩
    · cases hheld with
      | constructor hattachment _ => simp [Function.isStatic, hattachment]
      | static _ _ => cases hpick
  have hfilter : (functions.filter Function.isCompanion).filter Function.isStatic
      = functions.filter Function.isStatic := by
    rw [List.filter_filter]
    refine List.filter_congr fun f _ => ?_
    unfold Function.isStatic Function.isCompanion
    cases f.attachment <;> rfl
  rw [hfilter] at hstatics
  exact Claims.HoldsAll.nodup_iff (List.forall₂_map_left_iff.mpr hstatics)

/-- The parameters in a companion repeat as those of the functions do. -/
theorem repeatsAs_companion {claims : Claims} {scope : String} {functions : List Function}
    {companion : List CompanionMember}
    (h : List.Forall₂ (CompanionHeld claims scope) functions companion) :
    List.Forall₂ RepeatsAs (companion.map fun member => member.params.map Parameter.name)
      (functions.map fun f => f.params.map Param.name) := by
  refine List.forall₂_map_left_iff.mpr (List.forall₂_map_right_iff.mpr (h.flip.imp ?_))
  intro member f hheld
  cases hheld with
  | constructor _ hparams => exact hparams.nodup_iff
  | static _ hs => exact hs.params.nodup_iff

/-- **The scopes of a declared type repeat as the lists of its definition
do.** -/
theorem BodyHeld.repeatsAs {g : Graph} {claims : Claims} {scope : String} {t : TypeDef}
    {body : TypeBody} (h : BodyHeld g claims scope t body) :
    List.Forall₂ RepeatsAs body.scopes (g.listsOfType t) := by
  unfold Graph.listsOfType
  cases h with
  | record hkind hheld | variant hkind hheld | enumeration hkind hheld | flags hkind hheld =>
    rw [hkind]
    exact .cons hheld.nodup_iff .nil
  | resource hkind hfunctions hclose hmethods hcompanion =>
    rw [hkind, hfunctions]
    exact .cons (repeatsAs_methods hmethods hclose) <| .cons (repeatsAs_statics hcompanion) <|
      List.rel_append (repeatsAs_params hmethods) (repeatsAs_companion hcompanion)
  | aliasOf hkind =>
    cases hform : t.kind with
    | aliasOf _ | list _ | option _ | result _ _ | tuple _ | handle _ _ => exact .nil
    | record _ | variant _ | enumeration _ | flags _ | resource | future _ | stream _ =>
      rw [hform] at hkind
      cases hkind

section Declarations

variable {g : Graph} {claims : Claims} {scope : String} {ds : List TypeDeclaration}

/-- Declared types hold the identifiers of their names. -/
theorem holdsAll_of_held
    (h : ∀ d ∈ ds, ∃ t, g.typeDef d.id = .ok t ∧ DeclarationHeld g claims scope t d) :
    claims.HoldsAll .type scope (ds.filterMap fun d => g.nameOf d.id)
      (ds.map TypeDeclaration.name) := by
  induction ds with
  | nil => exact .nil
  | cons d ds ih =>
    obtain ⟨t, ht, hheld⟩ := h d List.mem_cons_self
    obtain ⟨raw, hraw, hname⟩ := hheld.name
    have hfound : g.nameOf d.id = some raw := by
      unfold Graph.nameOf
      rw [ht]
      exact hraw
    simp only [List.filterMap_cons, hfound]
    exact .cons hname (ih fun d' hd' => h d' (List.mem_cons_of_mem d hd'))

/-- The scopes of declared types repeat as the lists of their definitions
do. -/
theorem repeatsAs_of_held
    (h : ∀ d ∈ ds, ∃ t, g.typeDef d.id = .ok t ∧ DeclarationHeld g claims scope t d) :
    List.Forall₂ RepeatsAs (ds.flatMap (·.body.scopes))
      (ds.flatMap fun d => (g.typeDef d.id).toOption.elim [] g.listsOfType) := by
  induction ds with
  | nil => exact .nil
  | cons d ds ih =>
    obtain ⟨t, ht, hheld⟩ := h d List.mem_cons_self
    rw [List.flatMap_cons, List.flatMap_cons, ht]
    exact List.rel_append hheld.body.repeatsAs (ih fun d' hd' => h d' (List.mem_cons_of_mem d hd'))

end Declarations

/-- **The scopes of a module repeat as its lists do.** -/
theorem Module.Named.repeatsAs {a : Assignment} {claims : Claims} {m : Module}
    (h : m.Named a.graph claims (a.contentAfter a.items m.key)) :
    List.Forall₂ RepeatsAs m.scopes (a.listsOf m) := by
  have hfunctions : claims.HoldsAll .member m.location.path
      ((a.contentAfter a.items m.key).functions.map Function.name)
      (m.functions.map (·.signature.name)) :=
    List.forall₂_map_left_iff.mpr <| List.forall₂_map_right_iff.mpr <|
      h.functions.imp fun _ _ hf => hf.name
  have hparams : List.Forall₂ RepeatsAs
      (m.functions.map fun f => f.signature.params.map Parameter.name)
      ((a.contentAfter a.items m.key).functions.map fun f => f.params.map Param.name) :=
    List.forall₂_map_left_iff.mpr <| List.forall₂_map_right_iff.mpr <|
      h.functions.flip.imp fun _ _ hf => hf.params.nodup_iff
  exact .cons (holdsAll_of_held h.types).nodup_iff <| .cons hfunctions.nodup_iff <|
    List.rel_append (repeatsAs_of_held h.types) hparams

/-! ## Returned modules -/

/-- **A scope of a returned module repeats an identifier exactly when the list
behind it repeats a name.** -/
theorem scopes_nodup_iff {document : Document} {g : Graph} {o : Options} {world : World}
    {ms : List Module} (hdocument : Graph.ofDocument document = .ok g)
    (hworld : selectWorld g o = .ok world) (hrun : generateModules g o = .ok ms) :
    ∀ m ∈ ms, List.Forall₂ (fun names raws => names.Nodup ↔ raws.Nodup) m.scopes
      ((Assignment.ofOptions g o world).listsOf m) := by
  have orderly : g.Orderly := Graph.orderly_of_ofDocument hdocument
  obtain ⟨world', s, hworld', h, rfl⟩ := finished_of_generateModules orderly hrun
  obtain rfl : world = world' := Except.ok.inj (hworld.symm.trans hworld')
  exact fun m hm => (h.progress.kept.named m hm _ List.prefix_rfl).repeatsAs

/-! ## A type under two keys -/

/-- A world that imports its only type under two keys. -/
def twiceDocument : Document :=
  .object [
    (.text "packages", .list [.object [(.text "name", .string "a:b")]]),
    (.text "types", .list [.object [(.text "name", .string "t"),
      (.text "owner", .object [(.text "world", .int 0)]),
      (.text "kind", .object [(.text "record", .object [(.text "fields", .list [])])])]]),
    (.text "worlds", .list [.object [(.text "name", .string "w"), (.text "package", .int 0),
      (.text "imports", .object [(.text "t", .object [(.text "type", .int 0)]),
        (.text "u", .object [(.text "type", .int 0)])])]])]

/-- The world of that document. -/
def twiceWorld : World where
  id := 0
  name := "w"
  package := some 0
  imports := [(.text "t", .type 0), (.text "u", .type 0)]
  exports := []
  docs := none

/-- The graph of that document. -/
def twiceGraph : Graph where
  packages := [⟨0, ⟨"a", "b", none⟩, [], [], none⟩]
  interfaces := []
  types := [⟨0, some "t", .record [], some (.world 0), none⟩]
  worlds := [twiceWorld]

/-- The only module of that graph, with its type once for each key. -/
def twiceModule : Module where
  key := .world .imported
  location := ⟨"componentmodel", "w", ["componentmodel", "w"], "package.scala", .imported⟩
  docs := none
  types := [⟨0, "T", none, .record []⟩, ⟨0, "T", none, .record []⟩]

/-- What a run over that graph assigns to modules. -/
def twiceAssignment : Assignment := ⟨twiceGraph, twiceWorld, ⟨["componentmodel"]⟩⟩

/-- The session when one key or both keys have been walked, with the module
that there is by then. The claims are the same. -/
def twiceSession (m : Module) : Session where
  claims := [⟨"componentmodel", "exports", "<exports>"⟩, ⟨"componentmodel", "w", "<world w>"⟩,
    ⟨"componentmodel/w/package.scala", "T", "t"⟩]
  modules := [m]

/-- The second declaration repeats the claim of the first, and is granted. -/
theorem generateModules_twice : generateModules twiceGraph {} = .ok [twiceModule] := by
  have hfirst : twiceAssignment.generateItem (.imported, .text "t", .type 0)
      { claims := [⟨"componentmodel", "exports", "<exports>"⟩] }
      = .ok () (twiceSession { twiceModule with types := [⟨0, "T", none, .record []⟩] }) := rfl
  have hsecond : twiceAssignment.generateItem (.imported, .text "u", .type 0)
      (twiceSession { twiceModule with types := [⟨0, "T", none, .record []⟩] })
      = .ok () (twiceSession twiceModule) := rfl
  have hitems : twiceAssignment.items.forM twiceAssignment.generateItem
      { claims := [⟨"componentmodel", "exports", "<exports>"⟩] }
      = .ok () (twiceSession twiceModule) :=
    bind_eq_ok.mpr ⟨(), _, hfirst, bind_eq_ok.mpr ⟨(), _, hsecond, rfl⟩⟩
  exact generateModules_eq_ok (s := twiceSession twiceModule) rfl rfl hitems rfl

/-- In that module, as anywhere, a scope repeats an identifier when its list
repeats a name. -/
theorem scopes_nodup_iff_twice :
    Graph.ofDocument twiceDocument = .ok twiceGraph ∧
      selectWorld twiceGraph {} = .ok twiceWorld ∧
      generateModules twiceGraph {} = .ok [twiceModule] ∧
      ∀ m ∈ [twiceModule], List.Forall₂ (fun names raws => names.Nodup ↔ raws.Nodup) m.scopes
        ((Assignment.ofOptions twiceGraph {} twiceWorld).listsOf m) := by
  have hdocument : Graph.ofDocument twiceDocument = .ok twiceGraph := rfl
  have hworld : selectWorld twiceGraph {} = .ok twiceWorld := rfl
  exact ⟨hdocument, hworld, generateModules_twice,
    scopes_nodup_iff hdocument hworld generateModules_twice⟩

/-- **A returned module may declare an identifier twice in one scope.** -/
theorem not_nodup_scopes : ∃ document g o ms m, Graph.ofDocument document = .ok g ∧
    generateModules g o = .ok ms ∧ m ∈ ms ∧ ¬ ∀ names ∈ Module.scopes m, names.Nodup :=
  ⟨twiceDocument, twiceGraph, {}, _, twiceModule, rfl, generateModules_twice,
    List.mem_singleton_self _, fun h => absurd (h ["T", "T"] List.mem_cons_self) (by decide)⟩

end ComponentBindings
