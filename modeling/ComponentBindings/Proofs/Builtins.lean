import ComponentBindings.Proofs.Scopes

/-!
# Names that come with the language

Type expressions use a few names that no module declares: those of the
primitives that the language has itself, the one of arrays, and the one of
what carries nothing (`builtinNames`). They are printed without a package in
front of them, and so are the types that a module declares. If a module
declares a type under such a name, the name means the declared type from then
on, and every primitive of the module that is printed with it changes its
meaning.

The table of built-in names takes no part in the claims of a run, so nothing
stands against that. A module keeps the built-in names exactly when none of
its types has a name that converts to one (`builtins_kept_iff`), and where one
does, an alias may come out as an alias of itself, as `type Byte = Byte` does
(`not_keepsBuiltins`). There is no other way to an alias of itself, except the
honest one: the alias stands for a type that is called the same in the same
place.
-/

namespace ComponentBindings

/-! ## Printed names -/

/-- **The names that are printed without a package** although no module
declares them. -/
def builtinNames : List String :=
  ["Boolean", "Byte", "Short", "Int", "Long", "Float", "Double", "Char", "String", "Array", "Unit"]

/-- A text that is a name: nothing is selected in it and nothing applied. -/
def IsPlainName (text : String) : Prop := '.' ∉ text.toList ∧ '[' ∉ text.toList

/-- A module that declares no type under a built-in name. -/
def Module.KeepsBuiltins (m : Module) : Prop := ∀ d ∈ m.declarations, d.name ∉ builtinNames

/-- **A shape that is printed as a built-in name.** -/
inductive Shape.Prints : Shape → String → Prop
  /-- What carries nothing. -/
  | unit : Prints .unit unitSpelling
  /-- A primitive. -/
  | primitive (p : Primitive) : Prints (.primitive p) p.spelling
  /-- No values carry nothing either. -/
  | empty : Prints (.tuple []) unitSpelling
  /-- Another way to write such a shape. -/
  | aliasOf {target : Shape} {name : String} : Prints target name → Prints (.aliasOf target) name

/-- **A shape that stands for a named type**, directly or as a handle. -/
inductive Shape.StandsFor : Shape → Int → Prop
  /-- The type itself. -/
  | named (id : Int) : StandsFor (.named id) id
  /-- A handle on the type. -/
  | handle (id : Int) : StandsFor (.handle id) id
  /-- Another way to write such a shape. -/
  | aliasOf {target : Shape} {id : Int} : StandsFor target id → StandsFor (.aliasOf target) id

/-- **The built-in names are those that are printed without a package**: of
primitives, of what carries nothing, and in front of the element of a list. -/
theorem mem_builtinNames_iff {name : String} :
    name ∈ builtinNames ↔ (∃ p : Primitive, p.spelling = name ∧ '.' ∉ name.toList) ∨
      name = unitSpelling ∨ ∀ element, listSpelling element = name ++ "[" ++ element ++ "]" := by
  constructor
  · intro h
    simp only [builtinNames, List.mem_cons, List.not_mem_nil, or_false] at h
    rcases h with rfl | rfl | rfl | rfl | rfl | rfl | rfl | rfl | rfl | rfl | rfl
    · exact .inl ⟨.bool, rfl, by decide⟩
    · exact .inl ⟨.s8, rfl, by decide⟩
    · exact .inl ⟨.s16, rfl, by decide⟩
    · exact .inl ⟨.s32, rfl, by decide⟩
    · exact .inl ⟨.s64, rfl, by decide⟩
    · exact .inl ⟨.f32, rfl, by decide⟩
    · exact .inl ⟨.f64, rfl, by decide⟩
    · exact .inl ⟨.char, rfl, by decide⟩
    · exact .inl ⟨.string, rfl, by decide⟩
    · exact .inr (.inr fun element => rfl)
    · exact .inr (.inl rfl)
  · rintro (⟨p, rfl, hplain⟩ | rfl | hlist)
    · revert hplain
      cases p <;> decide
    · decide
    · have hempty := congrArg String.toList (hlist "")
      rw [String.append_empty, String.append_assoc, String.toList_append] at hempty
      have hname : "Array".toList = name.toList := List.append_cancel_right hempty
      rw [← String.toList_inj.mp hname]
      decide

/-- What is applied to a text has a bracket. -/
theorem bracket_mem_of_append {before after text : String} (h : '[' ∈ before.toList) :
    '[' ∈ (before ++ text ++ after).toList := by
  rw [String.toList_append, String.toList_append]
  exact List.mem_append_left _ (List.mem_append_left _ h)

/-- A list is no plain name. -/
theorem bracket_mem_listSpelling (element : String) : '[' ∈ (listSpelling element).toList :=
  bracket_mem_of_append (by decide)

/-- An element that may be absent is no plain name. -/
theorem bracket_mem_optionSpelling (element : String) : '[' ∈ (optionSpelling element).toList :=
  bracket_mem_of_append (by decide)

/-- A result is no plain name. -/
theorem bracket_mem_resultSpelling (ok err : String) : '[' ∈ (resultSpelling ok err).toList := by
  unfold resultSpelling
  simp only [String.toList_append, List.mem_append]
  simp

/-- A tuple of some items is no plain name. -/
theorem bracket_mem_tupleSpelling (text : String) (texts : List String) :
    '[' ∈ (tupleSpelling (text :: texts)).toList := by
  unfold tupleSpelling
  rw [if_neg (by simp)]
  simp only [String.toList_append, List.mem_append]
  simp

namespace Shape

variable {w : Wording} {text : String}

/-- What stands for a type is written as the type is referred to. -/
theorem StandsFor.spell_eq {s : Shape} {id : Int} (h : s.StandsFor id) : s.spell w = w id := by
  induction h with
  | named id => rfl
  | handle id => rfl
  | aliasOf _ ih =>
    rw [spell]
    exact ih

/-- What is printed as a name is written as that name. -/
theorem Prints.spell_eq {s : Shape} {name : String} (h : s.Prints name) :
    s.spell w = some name := by
  induction h with
  | unit => rfl
  | primitive p => rfl
  | empty => rfl
  | aliasOf _ ih =>
    rw [spell]
    exact ih

/-- **A shape that is written as a plain name** stands for a type that is
referred to by it, or is printed as it. -/
theorem standsFor_or_prints (hplain : IsPlainName text) :
    (s : Shape) → s.spell w = some text → (∃ id, s.StandsFor id ∧ w id = some text) ∨ s.Prints text
  | .unit, h => by
    obtain rfl := Option.some.inj h
    exact .inr .unit
  | .primitive p, h => by
    obtain rfl := Option.some.inj h
    exact .inr (.primitive p)
  | .named id, h => .inl ⟨id, .named id, h⟩
  | .handle id, h => .inl ⟨id, .handle id, h⟩
  | .list element, h => by
    rw [spell] at h
    obtain ⟨inner, -, h⟩ := Option.bind_eq_some_iff.mp h
    obtain rfl := Option.some.inj h
    exact absurd (bracket_mem_listSpelling inner) hplain.2
  | .option element, h => by
    rw [spell] at h
    obtain ⟨inner, -, h⟩ := Option.bind_eq_some_iff.mp h
    obtain rfl := Option.some.inj h
    exact absurd (bracket_mem_optionSpelling inner) hplain.2
  | .result ok err, h => by
    rw [spell] at h
    obtain ⟨okText, -, h⟩ := Option.bind_eq_some_iff.mp h
    obtain ⟨errText, -, h⟩ := Option.bind_eq_some_iff.mp h
    obtain rfl := Option.some.inj h
    exact absurd (bracket_mem_resultSpelling okText errText) hplain.2
  | .tuple [], h => by
    rw [spell, spellItems] at h
    obtain rfl := Option.some.inj h
    exact .inr .empty
  | .tuple (first :: rest), h => by
    rw [spell, spellItems] at h
    obtain ⟨texts, htexts, h⟩ := Option.bind_eq_some_iff.mp h
    obtain rfl := Option.some.inj h
    obtain ⟨firstText, -, htexts⟩ := Option.bind_eq_some_iff.mp htexts
    obtain ⟨restTexts, -, htexts⟩ := Option.bind_eq_some_iff.mp htexts
    obtain rfl := Option.some.inj htexts
    exact absurd (bracket_mem_tupleSpelling firstText restTexts) hplain.2
  | .aliasOf target, h => by
    rw [spell] at h
    rcases standsFor_or_prints hplain target h with ⟨id, hstands, hid⟩ | hprints
    · exact .inl ⟨id, hstands.aliasOf, hid⟩
    · exact .inr hprints.aliasOf

end Shape

/-- A plain name that a shape is printed as is built in. -/
theorem Shape.Prints.mem_builtinNames {s : Shape} {name : String} (h : s.Prints name)
    (hplain : IsPlainName name) : name ∈ builtinNames := by
  induction h with
  | unit => exact mem_builtinNames_iff.mpr (.inr (.inl rfl))
  | primitive p => exact mem_builtinNames_iff.mpr (.inl ⟨p, rfl, hplain.1⟩)
  | empty => exact mem_builtinNames_iff.mpr (.inr (.inl rfl))
  | aliasOf _ ih => exact ih hplain

/-! ## Types that are called by their plain names -/

namespace Assignment

variable {a : Assignment} {here : Location} {id : Int} {name : String}

/-- **A type that is called by its plain name in a place**: it has no owner, or
its owner declares its types there. -/
def NamedHere (a : Assignment) (here : Location) (id : Int) (name : String) : Prop :=
  ∃ t, a.graph.typeDef id = .ok t ∧ t.identifier = .ok name ∧
    ∀ owner, t.owner = some owner → a.place owner = .ok here

/-- A full name has a dot. -/
theorem dot_mem_memberPath (l : Location) (name : String) : '.' ∈ (l.memberPath name).toList := by
  unfold Location.memberPath
  cases l.direction with
  | imported =>
    simp only [String.toList_append, List.mem_append]
    simp
  | exported =>
    simp only [String.toList_append, List.mem_append]
    simp

/-- **A reference is a plain name exactly for the types of the place.** -/
theorem wording_eq_iff (hplain : IsPlainName name) :
    a.wording here id = some name ↔ a.NamedHere here id name := by
  rw [wording_eq_some_iff]
  constructor
  · rintro ⟨t, plain, ht, hname, ⟨howner, rfl⟩ | ⟨owner, location, howner, hplace, htext⟩⟩
    · exact ⟨t, ht, hname, fun owner ho => by rw [howner] at ho; cases ho⟩
    · by_cases hhere : location = here
      · rw [if_pos hhere] at htext
        refine ⟨t, ht, htext ▸ hname, fun owner' ho => ?_⟩
        obtain rfl : owner = owner' := Option.some.inj (howner.symm.trans ho)
        exact hhere ▸ hplace
      · rw [if_neg hhere] at htext
        exact absurd (htext ▸ dot_mem_memberPath location plain) hplain.1
  · rintro ⟨t, ht, hname, hplace⟩
    refine ⟨t, name, ht, hname, ?_⟩
    cases howner : t.owner with
    | none => exact .inl ⟨rfl, rfl⟩
    | some owner => exact .inr ⟨owner, here, rfl, hplace owner howner, if_pos rfl⟩

/-- **An alias that comes out as its own name** stands for a type that is
called so in its place, or is printed as a built-in name. -/
theorem Finished.alias_eq_name_iff {orderly : a.graph.Orderly} {s : Session}
    (h : a.Finished orderly s) {m : Module} (hm : m ∈ s.modules) {d : TypeDeclaration}
    (hd : d ∈ m.declarations) {e : TypeExpr} (hbody : d.body = .aliasOf e)
    (hplain : IsPlainName d.name) :
    e.text = d.name ↔ (∃ id, e.shape.StandsFor id ∧ a.NamedHere m.location id d.name) ∨
      d.name ∈ builtinNames ∧ e.shape.Prints d.name := by
  have hexpression : e ∈ m.expressions := by
    refine List.mem_append_left _ (List.mem_flatMap.mpr ⟨d, hd, ?_⟩)
    rw [hbody]
    exact List.mem_singleton_self e
  have htext : e.shape.spell (a.wording m.location) = some e.text := h.spelledBy hm e hexpression
  constructor
  · intro hname
    rw [hname] at htext
    rcases Shape.standsFor_or_prints hplain e.shape htext with ⟨id, hstands, hid⟩ | hprints
    · exact .inl ⟨id, hstands, (wording_eq_iff hplain).mp hid⟩
    · exact .inr ⟨hprints.mem_builtinNames hplain, hprints⟩
  · rintro (⟨id, hstands, hnamed⟩ | ⟨-, hprints⟩)
    · rw [hstands.spell_eq, (wording_eq_iff hplain).mpr hnamed] at htext
      exact (Option.some.inj htext).symm
    · rw [hprints.spell_eq] at htext
      exact (Option.some.inj htext).symm

/-- A type that a module declares has no namesake in it when its names are
distinct. -/
theorem Finished.id_eq_of_namedHere {orderly : a.graph.Orderly} {s : Session}
    (h : a.Finished orderly s) {m : Module} (hm : m ∈ s.modules) {d : TypeDeclaration}
    (hd : d ∈ m.declarations) (hnamed : a.NamedHere m.location id d.name)
    (hdeclares : m.DeclaresType id) (hnodup : (m.declarations.map TypeDeclaration.name).Nodup) :
    id = d.id := by
  obtain ⟨d', hd', rfl⟩ := hdeclares
  obtain ⟨ds, hds⟩ := h.declares hm
  obtain ⟨t', ht', hname'⟩ := hds.named orderly hd'
  obtain ⟨t, ht, hname, -⟩ := hnamed
  obtain rfl : t' = t := Except.ok.inj (ht'.symm.trans ht)
  have hsame : d'.name = d.name := Except.ok.inj (hname'.symm.trans hname)
  rw [List.inj_on_of_nodup_map hnodup hd' hd hsame]

/-- **A module keeps the built-in names exactly when no type that it declares
has a name that converts to one.** -/
theorem Finished.keepsBuiltins_iff {orderly : a.graph.Orderly} {s : Session}
    (h : a.Finished orderly s) {m : Module} (hm : m ∈ s.modules) :
    m.KeepsBuiltins ↔ ∀ d ∈ m.declarations, ∀ raw, a.graph.nameOf d.id = some raw →
      ∀ name ∈ builtinNames, identifierOf .type raw ≠ .ok name := by
  obtain ⟨ds, hds⟩ := h.declares hm
  have hidentifier : ∀ d ∈ m.declarations, ∃ raw, a.graph.nameOf d.id = some raw ∧
      identifierOf .type raw = .ok d.name := by
    intro d hd
    obtain ⟨t, ht, hname⟩ := hds.named orderly hd
    unfold Graph.nameOf
    rw [ht]
    exact TypeDef.identifier_eq_ok_iff.mp hname
  constructor
  · intro hkeeps d hd raw hraw name hname hconvert
    obtain ⟨raw', hraw', hidentifier⟩ := hidentifier d hd
    obtain rfl : raw = raw' := Option.some.inj (hraw.symm.trans hraw')
    rw [hconvert] at hidentifier
    exact hkeeps d hd (Except.ok.inj hidentifier ▸ hname)
  · intro hconverts d hd hname
    obtain ⟨raw, hraw, hidentifier⟩ := hidentifier d hd
    exact hconverts d hd raw hraw d.name hname hidentifier

end Assignment

/-! ## Returned modules -/

/-- **What becomes of the built-in names in a returned module.** They are kept
exactly when no type that it declares has a name that converts to one. An alias
under a plain name comes out as its own name exactly when it stands for a type
that is called so in its place, or when that is a built-in name and the one
that it is printed as. A type of the first kind is the alias itself, if the
module declares it and declares no name twice. -/
theorem builtins_kept_iff {document : Document} {g : Graph} {o : Options} {world : World}
    {ms : List Module} (hdocument : Graph.ofDocument document = .ok g)
    (hworld : selectWorld g o = .ok world) (hrun : generateModules g o = .ok ms) :
    let a := Assignment.ofOptions g o world
    ∀ m ∈ ms,
      (m.KeepsBuiltins ↔ ∀ d ∈ m.declarations, ∀ raw, g.nameOf d.id = some raw →
        ∀ name ∈ builtinNames, identifierOf .type raw ≠ .ok name) ∧
      ∀ d ∈ m.declarations, ∀ e, d.body = .aliasOf e → IsPlainName d.name →
        (e.text = d.name ↔ (∃ id, e.shape.StandsFor id ∧ a.NamedHere m.location id d.name) ∨
          d.name ∈ builtinNames ∧ e.shape.Prints d.name) ∧
        ∀ id, a.NamedHere m.location id d.name → m.DeclaresType id →
          (m.declarations.map TypeDeclaration.name).Nodup → id = d.id := by
  intro a
  have orderly : a.graph.Orderly := Graph.orderly_of_ofDocument hdocument
  obtain ⟨world', s, hworld', h, rfl⟩ := finished_of_generateModules orderly hrun
  obtain rfl : world = world' := Except.ok.inj (hworld.symm.trans hworld')
  refine fun m hm => ⟨h.keepsBuiltins_iff hm, fun d hd e hbody hplain => ?_⟩
  exact ⟨h.alias_eq_name_iff hm hd hbody hplain, fun id => h.id_eq_of_namedHere hm hd⟩

/-! ## An alias of itself -/

/-- A world that imports a type `byte`, which stands for small integers. -/
def byteDocument : Document :=
  .object [
    (.text "packages", .list [.object [(.text "name", .string "a:b")]]),
    (.text "types", .list [.object [(.text "name", .string "byte"),
      (.text "owner", .object [(.text "world", .int 0)]),
      (.text "kind", .object [(.text "type", .string "s8")])]]),
    (.text "worlds", .list [.object [(.text "name", .string "w"), (.text "package", .int 0),
      (.text "imports", .object [(.text "byte", .object [(.text "type", .int 0)])])]])]

/-- The world of that document. -/
def byteWorld : World where
  id := 0
  name := "w"
  package := some 0
  imports := [(.text "byte", .type 0)]
  exports := []
  docs := none

/-- The graph of that document. -/
def byteGraph : Graph where
  packages := [⟨0, ⟨"a", "b", none⟩, [], [], none⟩]
  interfaces := []
  types := [⟨0, some "byte", .aliasOf (.primitive .s8), some (.world 0), none⟩]
  worlds := [byteWorld]

/-- The only type of that graph, as it is declared. -/
def byteAlias : TypeDeclaration := ⟨0, "Byte", none, .aliasOf ⟨.aliasOf (.primitive .s8), "Byte"⟩⟩

/-- The only module of that graph. -/
def byteModule : Module where
  key := .world .imported
  location := ⟨"componentmodel", "w", ["componentmodel", "w"], "package.scala", .imported⟩
  docs := none
  types := [byteAlias]

/-- What a run over that graph assigns to modules. -/
def byteAssignment : Assignment := ⟨byteGraph, byteWorld, ⟨["componentmodel"]⟩⟩

/-- The session when the module has been opened. -/
def byteOpened : Session where
  claims := [⟨"componentmodel", "exports", "<exports>"⟩, ⟨"componentmodel", "w", "<world w>"⟩]
  modules := [{ byteModule with types := [] }]

/-- The session when the type has claimed its identifier. -/
def byteClaimed : Session := { byteOpened with
  claims := byteOpened.claims ++ [⟨"componentmodel/w/package.scala", "Byte", "byte"⟩] }

/-- The alias is expanded to the name of the primitive. -/
theorem expand_byte {r : Renderer} : r.expand byteGraph.types[0]
    = pure ⟨.aliasOf (.primitive .s8), "Byte"⟩ := by
  have hshape : r.graph.shapeOf (.primitive .s8) = .ok (.primitive .s8) := by
    unfold Graph.shapeOf
    rw [Graph.shapeWithin]
  show r.render (.primitive .s8) >>= _ = _
  unfold Renderer.render
  rw [hshape]
  rfl

/-- A run over that graph meets no fault. -/
theorem generateModules_byte : generateModules byteGraph {} = .ok [byteModule] := by
  let renderer := byteAssignment.renderer byteModule.location
  let site : Site := ⟨.imported, worldIdentity, byteModule.location.path⟩
  have hemit : renderer.emitType site byteGraph.types[0] byteOpened
      = .ok byteAlias byteClaimed := by
    unfold Renderer.emitType
    show (_ >>= fun name => _ <$> (_ <$> renderer.expand byteGraph.types[0])) byteOpened = _
    rw [expand_byte]
    rfl
  have hitem : byteAssignment.generateItem (.imported, .text "byte", .type 0)
      { claims := [⟨"componentmodel", "exports", "<exports>"⟩] }
      = .ok () { byteClaimed with modules := [byteModule] } := by
    show byteAssignment.generateWorldType 0 .imported _ = _
    unfold Assignment.generateWorldType
    refine bind_eq_ok.mpr ⟨byteGraph.types[0], _, rfl, bind_eq_ok.mpr ⟨(), _, rfl, ?_⟩⟩
    refine bind_eq_ok.mpr ⟨true, { byteOpened with modules := [] }, rfl, ?_⟩
    refine bind_eq_ok.mpr ⟨byteModule.location, byteOpened, rfl, ?_⟩
    exact bind_eq_ok.mpr ⟨byteGraph.types[0], _, rfl, bind_eq_ok.mpr ⟨byteAlias, _, hemit, rfl⟩⟩
  exact generateModules_eq_ok (s := { byteClaimed with modules := [byteModule] }) rfl rfl
    (bind_eq_ok.mpr ⟨(), _, hitem, rfl⟩) rfl

/-- In that module, as anywhere, a built-in name is kept unless a type has a
name that converts to it. -/
theorem builtins_kept_iff_byte :
    Graph.ofDocument byteDocument = .ok byteGraph ∧
      selectWorld byteGraph {} = .ok byteWorld ∧
      generateModules byteGraph {} = .ok [byteModule] ∧
      let a := Assignment.ofOptions byteGraph {} byteWorld
      ∀ m ∈ [byteModule],
        (m.KeepsBuiltins ↔ ∀ d ∈ m.declarations, ∀ raw, byteGraph.nameOf d.id = some raw →
          ∀ name ∈ builtinNames, identifierOf .type raw ≠ .ok name) ∧
        ∀ d ∈ m.declarations, ∀ e, d.body = .aliasOf e → IsPlainName d.name →
          (e.text = d.name ↔ (∃ id, e.shape.StandsFor id ∧ a.NamedHere m.location id d.name) ∨
            d.name ∈ builtinNames ∧ e.shape.Prints d.name) ∧
          ∀ id, a.NamedHere m.location id d.name → m.DeclaresType id →
            (m.declarations.map TypeDeclaration.name).Nodup → id = d.id := by
  have hdocument : Graph.ofDocument byteDocument = .ok byteGraph := rfl
  have hworld : selectWorld byteGraph {} = .ok byteWorld := rfl
  exact ⟨hdocument, hworld, generateModules_byte,
    builtins_kept_iff hdocument hworld generateModules_byte⟩

/-- **A returned module may declare a type under a built-in name.** -/
theorem not_keepsBuiltins : ∃ document g o ms m, Graph.ofDocument document = .ok g ∧
    generateModules g o = .ok ms ∧ m ∈ ms ∧ ¬ Module.KeepsBuiltins m :=
  ⟨byteDocument, byteGraph, {}, _, byteModule, rfl, generateModules_byte,
    List.mem_singleton_self _, fun h => absurd (h byteAlias List.mem_cons_self) (by decide)⟩

end ComponentBindings
