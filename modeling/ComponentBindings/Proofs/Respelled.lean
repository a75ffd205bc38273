import ComponentBindings.Proofs.Agreement
import ComponentBindings.Proofs.Readers
import Mathlib.Logic.Relation

/-!
# Documents in other spellings

What a value of a document means depends on where it stands: `"f32"` is a type where a type is
referred to, documentation where there is documentation, and the name of a flag in a list of flags.
A `Position` is such a place. It says which members of an object are read and as what
(`Position.member?`), and which of them may as well be left out (`Position.optional`).

`Position.Respells` puts one spelling in place of another, anywhere below a position: the rules of
the first kind are the spellings themselves, and those of the second lead into the members of an
object and the items of a list. Any number of replacements, in either direction, is the equivalence
that is generated by it.

That all of these documents are read alike is proved by induction on the way to the replacement.
What is carried along it is that the values are read alike where they stand (`Position.Alike`),
which at the position of a type is about the reader of types, at the position of a field about the
reader of fields, and so on. So there is one lemma for each reader, and it says what the reader
needs to know of the members of two objects (`MembersAlike`).
-/

namespace ComponentBindings

open Document (member member?)

/-! ## Positions -/

/-- **What a value of a document is read as.** -/
inductive Position where
  /-- The document. -/
  | document
  /-- A package. -/
  | package
  /-- An interface. -/
  | interface
  /-- A type definition. -/
  | typeDef
  /-- A world. -/
  | world
  /-- A function. -/
  | function
  /-- A parameter of a function. -/
  | param
  /-- One of the results of a function. -/
  | result
  /-- A reference to a type. -/
  | typeRef
  /-- Documentation. -/
  | docs
  /-- The kind of a type, with what the type is made of. -/
  | kind
  /-- The two arms of a result. -/
  | arms
  /-- A field of a record. -/
  | field
  /-- A case of a variant. -/
  | case
  /-- A case of an enumeration. -/
  | label
  /-- A flag. -/
  | flag
  /-- An import or export of a world. -/
  | item
  /-- The interface that an import or export names. -/
  | itemInterface
  /-- An object with a list of one kind of items. -/
  | holder (key : String) (item : Position)
  /-- A list. -/
  | listOf (item : Position)
  /-- An object whose members can have any name. -/
  | mapOf (entry : Position)

namespace Position

/-- The members of an object at a position that can be spelled in several ways, or have a value
below them that can, and what they are read as. -/
def members : Position → List (String × Position)
  | document => [("packages", listOf package), ("interfaces", listOf interface),
      ("types", listOf typeDef), ("worlds", listOf world)]
  | package | label | flag => [("docs", docs)]
  | interface => [("functions", mapOf function), ("docs", docs)]
  | typeDef => [("kind", kind), ("docs", docs)]
  | world => [("imports", mapOf item), ("exports", mapOf item), ("docs", docs)]
  | function => [("params", listOf param), ("result", typeRef), ("results", listOf result),
      ("docs", docs)]
  | param | result => [("type", typeRef)]
  | field | case => [("type", typeRef), ("docs", docs)]
  | kind => [("record", holder "fields" field), ("variant", holder "cases" case),
      ("enum", holder "cases" label), ("flags", holder "flags" flag),
      ("tuple", holder "types" typeRef), ("result", arms), ("type", typeRef), ("list", typeRef),
      ("option", typeRef), ("future", typeRef), ("stream", typeRef)]
  | arms => [("ok", typeRef), ("err", typeRef)]
  | item => [("interface", itemInterface), ("function", function)]
  | holder key q => [(key, listOf q)]
  | typeRef | docs | itemInterface | listOf _ | mapOf _ => []

/-- What a member of an object at a position is read as. -/
def member? (p : Position) (key : String) : Option Position := p.members.lookup key

/-- What a member is read as is written in the table. -/
theorem mem_members {p q : Position} {key : String} (h : p.member? key = some q) :
    (key, q) ∈ p.members := by
  obtain ⟨before, after, heq, -⟩ := List.lookup_eq_some_iff.mp h
  simp [heq]

/-- The members of an object at a position that are absent when they are null. -/
def optional : Position → List String
  | document => ["interfaces", "types", "worlds"]
  | package => ["interfaces", "worlds", "docs"]
  | interface => ["package", "types", "functions", "docs"]
  | typeDef => ["owner", "docs"]
  | world => ["package", "imports", "exports", "docs"]
  | function | field | case | label | flag => ["docs"]
  | holder "types" _ => ["types"]
  | _ => []

end Position

/-- A text or an integer, which is how a type is referred to. -/
inductive Document.IsReference : Document → Prop
  /-- The name of a primitive type. -/
  | name (text : String) : IsReference (.string text)
  /-- The id of a defined type. -/
  | id (value : Int) : IsReference (.int value)

/-- No member has a name. -/
def Document.Lacks (members : List (Scalar × Document)) (key : String) : Prop :=
  ∀ entry ∈ members, entry.1 ≠ .text key

/-- **One spelling in place of another**, at a position or somewhere below it. -/
inductive Position.Respells : Position → Document → Document → Prop
  /-- The older name of a number with thirty-two bits. -/
  | float32 : Respells .typeRef (.string "f32") (.string "float32")
  /-- The older name of a number with sixty-four bits. -/
  | float64 : Respells .typeRef (.string "f64") (.string "float64")
  /-- Documentation by itself or in an object. -/
  | docs (text : String) :
    Respells .docs (.string text) (.object [(.text "contents", .string text)])
  /-- A flag by itself or in an object. -/
  | flag {name : String} (hname : name ≠ "") :
    Respells .flag (.string name) (.object [(.text "name", .string name)])
  /-- The interface of an item by itself or in an object. -/
  | itemInterface (id : Int) :
    Respells .itemInterface (.int id) (.object [(.text "id", .int id)])
  /-- A result by itself or in an object. -/
  | result {type : Document} (htype : type.IsReference) :
    Respells .result type (.object [(.text "type", type)])
  /-- The only result of a function by itself or in a list. -/
  | onlyResult {type : Document} (htype : type.IsReference) (before after)
    (hresult : Document.Lacks (before ++ after) "result")
    (hresults : Document.Lacks (before ++ after) "results") :
    Respells .function (.object (before ++ (.text "result", type) :: after))
      (.object (before ++ (.text "results", .list [type]) :: after))
  /-- A function that is not said to be attached, or said not to be. -/
  | freestanding (before after) (hkind : Document.Lacks (before ++ after) "kind") :
    Respells .function (.object (before ++ after))
      (.object (before ++ (.text "kind", .string "freestanding") :: after))
  /-- A member that is absent or null. -/
  | absent {p : Position} {key : String} (hkey : key ∈ p.optional) (before after)
    (hlacks : Document.Lacks (before ++ after) key) :
    Respells p (.object (before ++ after)) (.object (before ++ (.text key, .null) :: after))
  /-- A replacement in a member. -/
  | member {p q : Position} {key : String} (hmember : p.member? key = some q) {value value'}
    (h : Respells q value value') (before after) :
    Respells p (.object (before ++ (.text key, value) :: after))
      (.object (before ++ (.text key, value') :: after))
  /-- A replacement in an item of a list. -/
  | item {p : Position} {value value'} (h : Respells p value value') (before after) :
    Respells (.listOf p) (.list (before ++ value :: after)) (.list (before ++ value' :: after))
  /-- A replacement in a member with any name. -/
  | entry {p : Position} {value value'} (h : Respells p value value') (key) (before after) :
    Respells (.mapOf p) (.object (before ++ (key, value) :: after))
      (.object (before ++ (key, value') :: after))

namespace Position

/-- **Values that differ in spellings**: one is got from the other by putting spellings in place of
others, in either direction and any number of times. -/
def Respelled (p : Position) : Document → Document → Prop := Relation.EqvGen p.Respells

namespace Respelled

variable {p q : Position} {d e f : Document}

/-- One replacement. -/
theorem of_respells (h : p.Respells d e) : p.Respelled d e := .rel _ _ h

/-- A replacement can be taken back. -/
protected theorem symm (h : p.Respelled d e) : p.Respelled e d := Relation.EqvGen.symm _ _ h

/-- Replacements are made one after the other. -/
protected theorem trans (h : p.Respelled d e) (h' : p.Respelled e f) : p.Respelled d f :=
  Relation.EqvGen.trans _ _ _ h h'

/-- Where one spelling in place of another makes another such step elsewhere, any number of them
does. -/
theorem lift {f : Document → Document} (hf : ∀ {d d'}, p.Respells d d' → q.Respells (f d) (f d'))
    {d d' : Document} (h : p.Respelled d d') : q.Respelled (f d) (f d') := by
  induction h with
  | rel d d' h => exact .rel _ _ (hf h)
  | refl d => exact .refl _
  | symm d d' _ ih => exact ih.symm
  | trans d e d' _ _ ih ih' => exact ih.trans ih'

/-- Replacements in a member are replacements in the object. -/
theorem member {key : String} (hmember : p.member? key = some q) {value value' : Document}
    (h : q.Respelled value value') (before after : List (Scalar × Document)) :
    p.Respelled (.object (before ++ (.text key, value) :: after))
      (.object (before ++ (.text key, value') :: after)) :=
  h.lift fun hstep => .member hmember hstep before after

/-- Replacements in an item are replacements in the list. -/
theorem item {value value' : Document} (h : p.Respelled value value')
    (before after : List Document) :
    (listOf p).Respelled (.list (before ++ value :: after)) (.list (before ++ value' :: after)) :=
  h.lift fun hstep => .item hstep before after

/-- Replacements in a member with any name are replacements in the object. -/
theorem entry {value value' : Document} (h : p.Respelled value value') (key : Scalar)
    (before after : List (Scalar × Document)) :
    (mapOf p).Respelled (.object (before ++ (key, value) :: after))
      (.object (before ++ (key, value') :: after)) :=
  h.lift fun hstep => .entry hstep key before after

end Respelled

end Position

/-! ## Values that can be shown -/

namespace Document

/-- An object can be shown with one more member when the member can be. -/
theorem isShowable_object_inserted {name : String} {value : Document}
    (h : value.isShowable = true) (before after : List (Scalar × Document)) :
    (object (before ++ after)).isShowable =
      (object (before ++ (.text name, value) :: after)).isShowable := by
  have htext : (Scalar.text name).isShowable = true := rfl
  rw [Bool.eq_iff_iff, isShowable_object, isShowable_object]
  simp only [List.forall_mem_append, List.forall_mem_cons, h, htext, true_and]

/-- An object can be shown with a member in place of another when both can be shown or neither. -/
theorem isShowable_object_replaced {key key' : Scalar} {value value' : Document}
    (hkey : key.isShowable = key'.isShowable) (h : value.isShowable = value'.isShowable)
    (before after : List (Scalar × Document)) :
    (object (before ++ (key, value) :: after)).isShowable =
      (object (before ++ (key', value') :: after)).isShowable := by
  rw [Bool.eq_iff_iff, isShowable_object, isShowable_object]
  simp only [List.forall_mem_append, List.forall_mem_cons, hkey, h]

/-- A list can be shown with an item in place of another when both can be shown or neither. -/
theorem isShowable_list_replaced {value value' : Document}
    (h : value.isShowable = value'.isShowable) (before after : List Document) :
    (list (before ++ value :: after)).isShowable =
      (list (before ++ value' :: after)).isShowable := by
  rw [Bool.eq_iff_iff, isShowable_list, isShowable_list]
  simp only [List.forall_mem_append, List.forall_mem_cons, h]

/-- An object with one member can be shown when the member can be. -/
theorem isShowable_object_singleton (name : String) (value : Document) :
    value.isShowable = (object [(.text name, value)]).isShowable := by
  have htext : (Scalar.text name).isShowable = true := rfl
  rw [Bool.eq_iff_iff, isShowable_object, List.forall_mem_singleton]
  simp only [htext, true_and]

/-- A list of one item can be shown when the item can be. -/
theorem isShowable_list_singleton (value : Document) :
    value.isShowable = (list [value]).isShowable := by
  rw [Bool.eq_iff_iff, isShowable_list, List.forall_mem_singleton]

end Document

/-- What can be shown can be shown in other spellings. -/
theorem Position.Respells.isShowable_eq {p : Position} {d d' : Document} (h : p.Respells d d') :
    d.isShowable = d'.isShowable := by
  induction h with
  | float32 | float64 => rfl
  | docs | flag | itemInterface | result => exact Document.isShowable_object_singleton _ _
  | onlyResult _ before after =>
    have hkey : (Scalar.text "result").isShowable = (Scalar.text "results").isShowable := rfl
    exact Document.isShowable_object_replaced hkey (Document.isShowable_list_singleton _) before
      after
  | freestanding before after => exact Document.isShowable_object_inserted rfl before after
  | absent _ before after => exact Document.isShowable_object_inserted rfl before after
  | member _ _ before after ih => exact Document.isShowable_object_replaced rfl ih before after
  | item _ before after ih => exact Document.isShowable_list_replaced ih before after
  | entry _ _ before after ih => exact Document.isShowable_object_replaced rfl ih before after

/-! ## Values that are read alike -/

/-- **Values that are read alike** where they stand. -/
def Position.Alike : Position → Document → Document → Prop
  | document, d, d' => SameOutcome (Graph.ofDocument d) (Graph.ofDocument d')
  | package, d, d' => ∀ k, Agree Eq (Package.ofDocument k d) (Package.ofDocument k d')
  | interface, d, d' => ∀ k, Agree Eq (Interface.ofDocument k d) (Interface.ofDocument k d')
  | typeDef, d, d' => ∀ k, Agree Eq (TypeDef.ofDocument k d) (TypeDef.ofDocument k d')
  | world, d, d' => ∀ k, Agree Eq (World.ofDocument k d) (World.ofDocument k d')
  | function, d, d' => ∀ c, Agree Eq (Function.ofDocument c d) (Function.ofDocument c d')
  | param, d, d' => ∀ c, Agree Eq (Param.ofDocument c d) (Param.ofDocument c d')
  | result, d, d' => ∀ c, Agree Eq (TypeRef.ofResult c d) (TypeRef.ofResult c d')
  | typeRef, d, d' => ∀ c, Agree Eq (TypeRef.ofDocument c d) (TypeRef.ofDocument c d') ∧
      Agree Eq (TypeRef.ofOptional c d) (TypeRef.ofOptional c d')
  | docs, d, d' => Document.docs [(.text "docs", d)] = Document.docs [(.text "docs", d')]
  | kind, d, d' => ∀ c, Agree Eq (TypeKind.ofDocument c d) (TypeKind.ofDocument c d')
  | arms, d, d' => ∀ c, Agree Eq (TypeKind.resultOf c d) (TypeKind.resultOf c d')
  | field, d, d' => ∀ c, Agree Eq (Field.ofDocument c d) (Field.ofDocument c d')
  | case, d, d' => ∀ c, Agree Eq (Case.ofDocument c d) (Case.ofDocument c d')
  | label, d, d' => ∀ c, Agree Eq (Label.ofDocument c d) (Label.ofDocument c d')
  | flag, d, d' => ∀ c, Agree Eq (flagName c d) (flagName c d')
  | item, d, d' => ∀ c, Agree Eq (WorldItem.ofDocument c d) (WorldItem.ofDocument c d')
  | itemInterface, d, d' =>
    ∀ c, Agree Eq (WorldItem.interfaceId c d) (WorldItem.interfaceId c d')
  | holder key q, d, d' =>
    Agree (List.Forall₂ q.Alike) (d.listMember key) (d'.listMember key)
  | listOf q, d, d' => d = d' ∨
    ∃ items items', d = .list items ∧ d' = .list items' ∧ List.Forall₂ q.Alike items items'
  | mapOf q, d, d' => d = d' ∨
    ∃ entries entries', d = .object entries ∧ d' = .object entries' ∧
      List.Forall₂ (fun e e' => e.1 = e'.1 ∧ q.Alike e.2 e'.2) entries entries'

/-- Values are read as they are. -/
theorem Position.alike_refl (p : Position) (d : Document) : p.Alike d d := by
  induction p generalizing d with
  | document => exact sameOutcome_equivalence.refl _
  | docs => exact rfl
  | typeRef => exact fun c => ⟨.of_eq rfl, .of_eq rfl⟩
  | holder key q ih => exact .refl (fun items => List.forall₂_same.mpr fun d _ => ih d) _
  | listOf q => exact .inl rfl
  | mapOf q => exact .inl rfl
  | _ => exact fun _ => .of_eq rfl

/-! ## Members that are read alike -/

namespace Document

variable {members before after : List (Scalar × Document)} {key name : String}

/-- Nothing is found under a name that no member has. -/
theorem member?_of_lacks (h : Lacks members key) : member? members key = none := by
  refine List.lookup_eq_none_iff.mpr fun entry hentry => ?_
  simpa using (h entry hentry).symm

/-- Under a name that has been inserted, its value is found. -/
theorem member?_inserted (h : Lacks (before ++ after) key) (value : Document) :
    member? (before ++ (.text key, value) :: after) key = some value := by
  have hbefore : before.lookup (.text key) = none :=
    member?_of_lacks fun entry hentry => h entry (List.mem_append_left after hentry)
  simp [member?, List.lookup_append, hbefore]

/-- Under another name than one that has been inserted, the same is found. -/
theorem member?_inserted_of_ne (h : name ≠ key) (value : Document) :
    member? (before ++ (.text key, value) :: after) name = member? (before ++ after) name := by
  have hne : (Scalar.text name == Scalar.text key) = false := by simpa using h
  simp [member?, List.lookup_append, List.lookup_cons, hne]

/-- When a member has its value replaced, the same is found as before or what has been replaced. -/
theorem member?_replaced (before after : List (Scalar × Document)) (key : String)
    (value value' : Document) (name : String) :
    member? (before ++ (.text key, value) :: after) name =
        member? (before ++ (.text key, value') :: after) name ∨
      name = key ∧ member? (before ++ (.text key, value) :: after) name = some value ∧
        member? (before ++ (.text key, value') :: after) name = some value' := by
  unfold member?
  rw [List.lookup_append, List.lookup_append]
  cases before.lookup (.text name) with
  | some found => exact .inl rfl
  | none =>
    by_cases hname : name = key
    · exact .inr (by simp [hname])
    · have hne : (Scalar.text name == Scalar.text key) = false := by simpa using hname
      exact .inl (by simp [List.lookup_cons, hne])

/-- What is done with the members of an object is done. -/
theorem members_bind {α : Type} (context : String) (members : List (Scalar × Document))
    (f : List (Scalar × Document) → Except Fault α) :
    ((object members).members context >>= f) = f members :=
  rfl

/-- Documentation is read from one member. -/
theorem docs_eq_singleton (members : List (Scalar × Document)) :
    docs members = docs [(.text "docs", member members "docs")] :=
  rfl

end Document

/-- **Members that are read alike** at a position. -/
structure MembersAlike (p : Position) (ms ms' : List (Scalar × Document)) : Prop where
  /-- What can be spelled in several ways is read alike. -/
  alike : ∀ {key q}, p.member? key = some q → q.Alike (member ms key) (member ms' key)
  /-- What cannot is the same. -/
  same : ∀ {key}, p.member? key = none → member ms key = member ms' key
  /-- The same members are absent, null aside where it means the same. -/
  present : ∀ {key}, key ∉ p.optional → (member? ms key).isSome = (member? ms' key).isSome

namespace MembersAlike

variable {p q : Position} {ms ms' : List (Scalar × Document)}

/-- Members are read alike when a value among them is replaced by one that is. -/
theorem of_replaced {key : String} {value value' : Document} (hkey : p.member? key = some q)
    (h : q.Alike value value') (before after : List (Scalar × Document)) :
    MembersAlike p (before ++ (.text key, value) :: after)
      (before ++ (.text key, value') :: after) where
  alike {name r} hname := by
    unfold member
    rcases Document.member?_replaced before after key value value' name with
      hsame | ⟨rfl, hfound, hfound'⟩
    · rw [hsame]
      exact r.alike_refl _
    · obtain rfl : q = r := by simpa [hkey] using hname
      rw [hfound, hfound']
      exact h
  same {name} hname := by
    unfold member
    rcases Document.member?_replaced before after key value value' name with hsame | ⟨rfl, -⟩
    · rw [hsame]
    · rw [hkey] at hname
      cases hname
  present {name} _ := by
    rcases Document.member?_replaced before after key value value' name with
      hsame | ⟨-, hfound, hfound'⟩
    · rw [hsame]
    · rw [hfound, hfound']
      rfl

/-- Members are read alike when one is null that may be absent. -/
theorem of_absent {key : String} (hkey : key ∈ p.optional) {before after : List (Scalar × Document)}
    (hlacks : Document.Lacks (before ++ after) key) :
    MembersAlike p (before ++ after) (before ++ (.text key, .null) :: after) := by
  have hmember : ∀ name, member (before ++ after) name =
      member (before ++ (.text key, .null) :: after) name := by
    intro name
    unfold member
    by_cases hname : name = key
    · rw [hname, Document.member?_of_lacks hlacks, Document.member?_inserted hlacks]
      rfl
    · rw [Document.member?_inserted_of_ne hname]
  refine ⟨fun {name q} _ => hmember name ▸ q.alike_refl _, fun _ => hmember _,
    fun {name} hname => ?_⟩
  have hne : name ≠ key := by
    rintro rfl
    exact hname hkey
  rw [Document.member?_inserted_of_ne hne]

/-- What cannot be spelled in several ways, and cannot be left out, is found alike. -/
theorem member?_eq (h : MembersAlike p ms ms') (key : String) (hkey : p.member? key = none)
    (hoptional : key ∉ p.optional) : member? ms key = member? ms' key := by
  have hpresent := h.present hoptional
  have hsame := h.same hkey
  unfold member at hsame
  cases hms : member? ms key <;> cases hms' : member? ms' key <;> simp_all

/-- A text is read from the same value. -/
theorem textMember_eq (h : MembersAlike p ms ms') (key : String) (hkey : p.member? key = none)
    (c : String) :
    Document.textMember ms key c = Document.textMember ms' key c := by
  unfold Document.textMember
  rw [h.same hkey]

/-- An object is read from the same value. -/
theorem objectMember_eq (h : MembersAlike p ms ms') (key : String) (hkey : p.member? key = none)
    (c : String) :
    Document.objectMember ms key c = Document.objectMember ms' key c := by
  unfold Document.objectMember
  rw [h.same hkey]

/-- A name is read from the same value. -/
theorem nameOf_eq (h : MembersAlike p ms ms') (hkey : p.member? "name" = none) (c : String)
    (what : Malformation) : nameOf ms c what = nameOf ms' c what := by
  unfold nameOf
  rw [h.same hkey]

/-- Documentation is read alike. -/
theorem docs_eq (h : MembersAlike p ms ms') (hdocs : p.member? "docs" = some .docs) :
    Document.docs ms = Document.docs ms' := by
  rw [Document.docs_eq_singleton ms, Document.docs_eq_singleton ms']
  exact h.alike hdocs

/-- A reference to a type is read alike. -/
theorem typeRef (h : MembersAlike p ms ms') (key : String) (hkey : p.member? key = some .typeRef)
    (c : String) :
    Agree Eq (TypeRef.ofDocument c (member ms key)) (TypeRef.ofDocument c (member ms' key)) :=
  (h.alike hkey c).1

/-- A reference to a type that may be absent is read alike. -/
theorem optionalRef (h : MembersAlike p ms ms') (key : String)
    (hkey : p.member? key = some .typeRef) (c : String) :
    Agree Eq (TypeRef.ofOptional c (member ms key)) (TypeRef.ofOptional c (member ms' key)) :=
  (h.alike hkey c).2

/-- The items of a list are read alike. -/
theorem listMember (h : MembersAlike p ms ms') (key : String)
    (hkey : p.member? key = some (.listOf q)) :
    Agree (List.Forall₂ q.Alike) (Document.listMember key (.object ms))
      (Document.listMember key (.object ms')) := by
  unfold Document.listMember
  dsimp only [Document.bare]
  rcases h.alike hkey with heq | ⟨items, items', hitems, hitems', hrel⟩
  · rw [heq]
    exact .refl (fun items => List.forall₂_same.mpr fun d _ => q.alike_refl d) _
  · rw [hitems, hitems']
    exact .ok hrel

/-- The items of a list that is walked are read alike. -/
theorem enumerate (h : MembersAlike p ms ms') (key : String)
    (hkey : p.member? key = some (.listOf q)) :
    Agree (List.Forall₂ q.Alike) (member ms key).enumerate (member ms' key).enumerate := by
  rcases h.alike hkey with heq | ⟨items, items', hitems, hitems', hrel⟩
  · rw [heq]
    exact .refl (fun items => List.forall₂_same.mpr fun d _ => q.alike_refl d) _
  · rw [hitems, hitems']
    exact .ok hrel

/-- The members of an object are read alike. -/
theorem objectMember (h : MembersAlike p ms ms') (key : String)
    (hkey : p.member? key = some (.mapOf q)) (c : String) :
    Agree (List.Forall₂ fun e e' => e.1 = e'.1 ∧ q.Alike e.2 e'.2)
      (Document.objectMember ms key c) (Document.objectMember ms' key c) := by
  unfold Document.objectMember
  rcases h.alike hkey with heq | ⟨entries, entries', hentries, hentries', hrel⟩
  · rw [heq]
    exact .refl (fun entries => List.forall₂_same.mpr fun e _ => ⟨rfl, q.alike_refl e.2⟩) _
  · rw [hentries, hentries']
    exact .ok hrel

/-- The members of an object are read one by one. -/
theorem entries (h : MembersAlike p ms ms') (key : String)
    (hkey : p.member? key = some (.mapOf q)) (c : String) {α : Type}
    {read : Scalar × Document → Except Fault α}
    (hread : ∀ name {d d'}, q.Alike d d' → Agree Eq (read (name, d)) (read (name, d'))) :
    Agree Eq (Document.objectMember ms key c >>= fun entries => entries.mapM read)
      (Document.objectMember ms' key c >>= fun entries => entries.mapM read) := by
  refine (h.objectMember key hkey c).bind fun entries entries' hentries => ?_
  refine Agree.mapM_eq hentries fun e e' he => ?_
  obtain ⟨name, d⟩ := e
  obtain ⟨name', d'⟩ := e'
  obtain ⟨rfl, hvalue⟩ := he
  exact hread name hvalue

end MembersAlike

end ComponentBindings
