import ComponentBindings.Proofs.Respelled

/-!
# Documents in other spellings are read alike

The readers are taken one by one. An object that is read member by member is read alike when its
members are (`MembersAlike.alike_object`). The kind of a type and an item of a world are objects
with one member, whose name decides what the rest is read as; with more members they are refused,
and the message shows all of them (`Position.alike_kind`, `Position.alike_item`). A function is the
one place where a replacement changes which members there are.

The induction on the way to a replacement is then short (`Position.Respells.alike`), and so is the
step to any number of replacements, because having one outcome is an equivalence
(`Graph.sameOutcome_ofDocument`).
-/

namespace ComponentBindings

open Document (member member?)

/-! ## Objects that are read member by member -/

/-- Functions are read alike when their parts are. -/
theorem Function.agree_ofDocument
    {ms ms' : List (Scalar × Document)}
    (hname : member ms "name" = member ms' "name")
    (hkind : ∀ c, Attachment.ofDocument c (member? ms "kind") =
      Attachment.ofDocument c (member? ms' "kind"))
    (hparams : Agree (List.Forall₂ Position.param.Alike) (member ms "params").enumerate
      (member ms' "params").enumerate)
    (hresults : ∀ c, Agree Eq (Function.resultsOf ms c) (Function.resultsOf ms' c))
    (hdocs : Document.docs ms = Document.docs ms') (c : String) :
    Agree Eq (Function.ofDocument c (.object ms)) (Function.ofDocument c (.object ms')) := by
  have htext : Document.textMember ms "name" c = Document.textMember ms' "name" c := by
    unfold Document.textMember
    rw [hname]
  simp only [Function.ofDocument, Document.members_bind, htext, hkind, hdocs]
  refine .bind_left _ fun name => .bind_left _ fun attachment => ?_
  refine hparams.bind fun _ _ hitems => ?_
  refine (Agree.mapM_eq hitems fun _ _ hparam => hparam _).bind_eq fun params => ?_
  exact (hresults _).bind_right _

namespace MembersAlike

variable {ms ms' : List (Scalar × Document)}

/-- Parameters are read alike. -/
theorem param (h : MembersAlike .param ms ms') (c : String) :
    Agree Eq (Param.ofDocument c (.object ms)) (Param.ofDocument c (.object ms')) := by
  simp only [Param.ofDocument, Document.members_bind, h.textMember_eq "name" rfl]
  exact .bind_left _ fun _ => (h.typeRef "type" rfl c).bind_right _

/-- Results are read alike. -/
theorem result (h : MembersAlike .result ms ms') (c : String) :
    Agree Eq (TypeRef.ofResult c (.object ms)) (TypeRef.ofResult c (.object ms')) :=
  h.typeRef "type" rfl c

/-- Fields are read alike. -/
theorem field (h : MembersAlike .field ms ms') (c : String) :
    Agree Eq (Field.ofDocument c (.object ms)) (Field.ofDocument c (.object ms')) := by
  simp only [Field.ofDocument, Document.members_bind, h.textMember_eq "name" rfl, h.docs_eq rfl]
  exact .bind_left _ fun _ => (h.typeRef "type" rfl c).bind_right _

/-- Cases are read alike. -/
theorem case (h : MembersAlike .case ms ms') (c : String) :
    Agree Eq (Case.ofDocument c (.object ms)) (Case.ofDocument c (.object ms')) := by
  simp only [Case.ofDocument, Document.members_bind, h.textMember_eq "name" rfl, h.docs_eq rfl]
  exact .bind_left _ fun _ => (h.optionalRef "type" rfl c).bind_right _

/-- Labels are read alike. -/
theorem label (h : MembersAlike .label ms ms') (c : String) :
    Agree Eq (Label.ofDocument c (.object ms)) (Label.ofDocument c (.object ms')) := by
  simp only [Label.ofDocument, Document.members_bind, h.textMember_eq "name" rfl, h.docs_eq rfl]
  exact .of_eq rfl

/-- Flags are read alike. -/
theorem flag (h : MembersAlike .flag ms ms') (c : String) :
    Agree Eq (flagName c (.object ms)) (flagName c (.object ms')) :=
  .of_eq (h.textMember_eq "name" rfl c)

/-- The arms of a result are read alike. -/
theorem arms (h : MembersAlike .arms ms ms') (c : String) :
    Agree Eq (TypeKind.resultOf c (.object ms)) (TypeKind.resultOf c (.object ms')) :=
  (h.optionalRef "ok" rfl c).bind_eq fun _ => (h.optionalRef "err" rfl c).bind_right _

/-- The results of a function are read alike. -/
theorem results (h : MembersAlike .function ms ms') (c : String) :
    Agree Eq (Function.resultsOf ms c) (Function.resultsOf ms' c) := by
  have hpresent : (member? ms "result").isSome = (member? ms' "result").isSome :=
    h.present (by decide)
  have hresult := h.optionalRef "result" rfl c
  unfold Document.member at hresult
  unfold Function.resultsOf
  cases hms : member? ms "result" <;> cases hms' : member? ms' "result" <;>
    rw [hms, hms'] at hpresent hresult <;> try cases hpresent
  · exact (h.enumerate "results" rfl).bind fun _ _ hitems =>
      Agree.mapM_eq hitems fun _ _ hitem => hitem c
  · exact hresult.map fun _ _ heq => heq ▸ rfl

/-- Functions are read alike. -/
theorem function (h : MembersAlike .function ms ms') (c : String) :
    Agree Eq (Function.ofDocument c (.object ms)) (Function.ofDocument c (.object ms')) :=
  Function.agree_ofDocument (h.same rfl) (fun _ => by rw [h.member?_eq "kind" rfl (by decide)])
    (h.enumerate "params" rfl) h.results (h.docs_eq rfl) c

/-- Packages are read alike. -/
theorem package (h : MembersAlike .package ms ms') (k : Nat) :
    Agree Eq (Package.ofDocument k (.object ms)) (Package.ofDocument k (.object ms')) := by
  simp only [Package.ofDocument, Document.members_bind, h.textMember_eq "name" rfl,
    h.objectMember_eq "interfaces" rfl, h.objectMember_eq "worlds" rfl, h.docs_eq rfl]
  exact .of_eq rfl

/-- Interfaces are read alike. -/
theorem interface (h : MembersAlike .interface ms ms') (k : Nat) :
    Agree Eq (Interface.ofDocument k (.object ms)) (Interface.ofDocument k (.object ms')) := by
  have hpackage : member ms "package" = member ms' "package" := h.same rfl
  simp only [Interface.ofDocument, Document.members_bind, h.nameOf_eq rfl, hpackage,
    h.objectMember_eq "types" rfl, h.docs_eq rfl]
  refine .bind_left _ fun name => .bind_left _ fun package => .bind_left _ fun _ =>
    .bind_left _ fun types => ?_
  rw [← bind_assoc, ← bind_assoc]
  exact (h.entries "functions" rfl _ fun _ => (· _ |>.bind_right _)).bind_right _

/-- Type definitions are read alike. -/
theorem typeDef (h : MembersAlike .typeDef ms ms') (k : Nat) :
    Agree Eq (TypeDef.ofDocument k (.object ms)) (TypeDef.ofDocument k (.object ms')) := by
  have howner : member ms "owner" = member ms' "owner" := h.same rfl
  simp only [TypeDef.ofDocument, Document.members_bind, h.nameOf_eq rfl, howner, h.docs_eq rfl]
  refine .bind_left _ fun name => .bind_left _ fun owner => .bind_left _ fun docs => ?_
  have hkind : Position.kind.Alike (member ms "kind") (member ms' "kind") := h.alike rfl
  exact (hkind _).bind_right _

/-- Worlds are read alike. -/
theorem world (h : MembersAlike .world ms ms') (k : Nat) :
    Agree Eq (World.ofDocument k (.object ms)) (World.ofDocument k (.object ms')) := by
  have hpackage : member ms "package" = member ms' "package" := h.same rfl
  simp only [World.ofDocument, Document.members_bind, h.textMember_eq "name" rfl, hpackage,
    h.docs_eq rfl]
  refine .bind_left _ fun name => .bind_left _ fun package => ?_
  have hitem : ∀ (key : Scalar) {d d' : Document}, Position.item.Alike d d' →
      ∀ c, Agree Eq (do
          if !key.isShowable then throw (.unrepresentable .tooLongToShow)
          return (key, ← WorldItem.ofDocument c d))
        (do
          if !key.isShowable then throw (.unrepresentable .tooLongToShow)
          return (key, ← WorldItem.ofDocument c d')) := by
    intro key d d' hvalue c
    split
    · exact .bind_left _ fun _ => (hvalue c).bind_right _
    · exact (hvalue c).bind_right _
  refine (h.entries "imports" rfl _ fun key _ _ hvalue => hitem key hvalue _).bind_eq
    fun imports => ?_
  exact (h.entries "exports" rfl _ fun key _ _ hvalue => hitem key hvalue _).bind_right _

end MembersAlike

/-! ## Values under a tag -/

/-- An object with one member is still one when the value is replaced, and another object is refused
alike. -/
theorem Document.agree_single {value value' : Document}
    (h : value.isShowable = value'.isShowable) (before after : List (Scalar × Document))
    (key : Scalar) (c : String) :
    Agree (fun e e' => e = (key, value) ∧ e' = (key, value'))
      (Document.single c (.object (before ++ (key, value) :: after)))
      (Document.single c (.object (before ++ (key, value') :: after))) := by
  have hrefused : ∀ {ms : List (Scalar × Document)}, ms.length ≠ 1 →
      Document.single c (.object ms) = misplaced c (.notSingleMember (.object ms)) := by
    intro ms hms
    match ms with
    | [] => rfl
    | [_] => exact absurd rfl hms
    | _ :: _ :: _ => rfl
  by_cases hone : before = [] ∧ after = []
  · obtain ⟨rfl, rfl⟩ := hone
    exact .ok ⟨rfl, rfl⟩
  · have hlength : ∀ d : Document, (before ++ (key, d) :: after).length ≠ 1 := by
      intro d
      rw [List.length_append, List.length_cons]
      rw [← List.length_eq_zero_iff, ← List.length_eq_zero_iff] at hone
      omega
    rw [hrefused (hlength value), hrefused (hlength value')]
    exact .malformed (Document.isShowable_object_replaced rfl h before after)

namespace Position

variable {q : Position} {key : String} {value value' : Document}

/-- The items of a list are read alike under its key, and something is made of them. -/
theorem Alike.holder {name : String} (h : (holder name q).Alike value value') {α β : Type}
    {read : Document → Except Fault α}
    (hread : ∀ d d', q.Alike d d' → Agree Eq (read d) (read d')) (f : List α → Except Fault β) :
    Agree Eq (value.listMember name >>= fun items => items.mapM read >>= f)
      (value'.listMember name >>= fun items => items.mapM read >>= f) :=
  Agree.bind h fun _ _ hitems => (Agree.mapM_eq hitems hread).bind_right f

/-- Kinds are read alike. -/
theorem alike_kind (hkey : kind.member? key = some q) (h : q.Alike value value')
    (hshow : value.isShowable = value'.isShowable) (before after : List (Scalar × Document)) :
    kind.Alike (.object (before ++ (.text key, value) :: after))
      (.object (before ++ (.text key, value') :: after)) := by
  intro c
  refine (Document.agree_single hshow before after (.text key) c).bind ?_
  rintro _ _ ⟨rfl, rfl⟩
  have hmem := mem_members hkey
  simp only [Position.members, List.mem_cons, List.not_mem_nil, or_false, Prod.mk.injEq] at hmem
  rcases hmem with ⟨rfl, rfl⟩ | ⟨rfl, rfl⟩ | ⟨rfl, rfl⟩ | ⟨rfl, rfl⟩ | ⟨rfl, rfl⟩ | ⟨rfl, rfl⟩ |
    ⟨rfl, rfl⟩ | ⟨rfl, rfl⟩ | ⟨rfl, rfl⟩ | ⟨rfl, rfl⟩ | ⟨rfl, rfl⟩
  · exact Alike.holder h (fun _ _ hd => hd c) _
  · exact Alike.holder h (fun _ _ hd => hd c) _
  · exact Alike.holder h (fun _ _ hd => hd c) _
  · exact Alike.holder h (fun _ _ hd => hd c) _
  · exact Alike.holder h (fun _ _ hd => (hd c).1) _
  · exact h c
  · exact (h c).1.bind_right _
  · exact (h c).1.bind_right _
  · exact (h c).1.bind_right _
  · exact (h c).2.bind_right _
  · exact (h c).2.bind_right _

/-- Items are read alike. -/
theorem alike_item (hkey : item.member? key = some q) (h : q.Alike value value')
    (hshow : value.isShowable = value'.isShowable) (before after : List (Scalar × Document)) :
    item.Alike (.object (before ++ (.text key, value) :: after))
      (.object (before ++ (.text key, value') :: after)) := by
  intro c
  refine (Document.agree_single hshow before after (.text key) c).bind ?_
  rintro _ _ ⟨rfl, rfl⟩
  have hmem := mem_members hkey
  simp only [Position.members, List.mem_cons, List.not_mem_nil, or_false, Prod.mk.injEq] at hmem
  rcases hmem with ⟨rfl, rfl⟩ | ⟨rfl, rfl⟩
  · exact (h c).bind_right _
  · exact (h c).bind_right _

end Position

/-! ## Documents -/

/-- Entries are read alike, each with its position. -/
theorem Agree.zipIdx {α : Type} {q : Position} {read : Nat → Document → Except Fault α}
    (hread : ∀ k {d d'}, q.Alike d d' → Agree Eq (read k d) (read k d'))
    {items items' : List Document} (h : List.Forall₂ q.Alike items items') (start : Nat) :
    Agree Eq ((items.zipIdx start).mapM fun (value, position) => read position value)
      ((items'.zipIdx start).mapM fun (value, position) => read position value) := by
  induction h generalizing start with
  | nil => exact .of_eq rfl
  | cons hhead _ ih =>
    simp only [List.zipIdx_cons, List.mapM_cons]
    exact (hread start hhead).bind_eq fun _ => (ih (start + 1)).bind_right _

/-- The entries of a list of a document are read alike. -/
theorem MembersAlike.listEntries {α : Type} {p q : Position}
    {read : Nat → Document → Except Fault α} {ms ms' : List (Scalar × Document)}
    (h : MembersAlike p ms ms') (key : String) (hkey : p.member? key = some (.listOf q))
    (hread : ∀ k {d d'}, q.Alike d d' → Agree Eq (read k d) (read k d')) :
    Agree Eq ((Document.object ms).entries key read) ((Document.object ms').entries key read) :=
  (h.listMember key hkey).bind fun _ _ hitems => Agree.zipIdx hread hitems 0

/-- Documents are read alike. -/
theorem MembersAlike.document {ms ms'} (h : MembersAlike .document ms ms') :
    SameOutcome (Graph.ofDocument (.object ms)) (Graph.ofDocument (.object ms')) := by
  show SameOutcome ((Graph.ofObject (.object ms)).mapError Fault.reported)
    ((Graph.ofObject (.object ms')).mapError Fault.reported)
  refine Agree.sameOutcome ?_
  unfold Graph.ofObject
  refine (h.listEntries "packages" rfl fun k _ _ hd => hd k).bind_eq fun packages => ?_
  refine (h.listEntries "interfaces" rfl fun k _ _ hd => hd k).bind_eq fun interfaces => ?_
  refine (h.listEntries "types" rfl fun k _ _ hd => hd k).bind_eq fun types => ?_
  exact (h.listEntries "worlds" rfl fun k _ _ hd => hd k).bind_right _

/-- Whether a value at a position is an object that is read member by member. -/
def Position.isRecord : Position → Bool
  | kind | item | typeRef | docs | itemInterface | listOf _ | mapOf _ => false
  | _ => true

/-- Members may be left out of objects that are read member by member. -/
theorem Position.isRecord_of_mem_optional {p : Position} {key : String} (h : key ∈ p.optional) :
    p.isRecord = true := by
  cases p with
  | kind | item | typeRef | docs | itemInterface | listOf | mapOf => cases h
  | _ => rfl

/-- Members that are read alike make objects that are. -/
theorem MembersAlike.alike_object {p : Position} {ms ms'} (h : MembersAlike p ms ms')
    (hrecord : p.isRecord = true) : p.Alike (.object ms) (.object ms') := by
  cases p with
  | document => exact h.document
  | package => exact h.package
  | interface => exact h.interface
  | typeDef => exact h.typeDef
  | world => exact h.world
  | function => exact h.function
  | param => exact h.param
  | result => exact h.result
  | arms => exact h.arms
  | field => exact h.field
  | case => exact h.case
  | label => exact h.label
  | flag => exact h.flag
  | holder key q => exact h.listMember key (by simp [Position.member?, Position.members])
  | kind | item | typeRef | docs | itemInterface | listOf | mapOf => cases hrecord

/-- Lists are related item by item when one item is replaced. -/
theorem forall₂_replaced {α : Type} {R : α → α → Prop} (hrefl : ∀ a, R a a) {a a' : α}
    (h : R a a') (before after : List α) :
    List.Forall₂ R (before ++ a :: after) (before ++ a' :: after) :=
  List.rel_append (List.forall₂_same.mpr fun b _ => hrefl b)
    (.cons h (List.forall₂_same.mpr fun b _ => hrefl b))

section Functions

variable {ms ms' before after : List (Scalar × Document)}

/-- Functions are read alike when they are attached alike, have the same results and are the same
otherwise. -/
theorem Function.alike_of_member?
    (hsame : ∀ name, name ∉ ["kind", "result", "results"] → member? ms name = member? ms' name)
    (hkind : ∀ c, Attachment.ofDocument c (member? ms "kind") =
      Attachment.ofDocument c (member? ms' "kind"))
    (hresults : ∀ c, Function.resultsOf ms c = Function.resultsOf ms' c) :
    Position.function.Alike (.object ms) (.object ms') := by
  have hmember : ∀ name, name ∉ ["kind", "result", "results"] →
      member ms name = member ms' name := by
    intro name hname
    unfold member
    rw [hsame name hname]
  refine Function.agree_ofDocument (hmember "name" (by decide)) hkind ?_
    (fun c => .of_eq (hresults c)) ?_
  · rw [hmember "params" (by decide)]
    exact .refl (fun items => List.forall₂_same.mpr fun d _ => Position.param.alike_refl d) _
  · rw [Document.docs_eq_singleton, hmember "docs" (by decide), ← Document.docs_eq_singleton]

/-- The results of a function are the same when the only one stands by itself and in a list. -/
theorem Function.resultsOf_onlyResult {type : Document} (htype : type.IsReference)
    (hresult : Document.Lacks (before ++ after) "result")
    (hresults : Document.Lacks (before ++ after) "results") (c : String) :
    Function.resultsOf (before ++ (.text "result", type) :: after) c =
      Function.resultsOf (before ++ (.text "results", .list [type]) :: after) c := by
  have hnone : member? (before ++ (.text "results", .list [type]) :: after) "result" = none := by
    rw [Document.member?_inserted_of_ne (by decide), Document.member?_of_lacks hresult]
  unfold Function.resultsOf Document.member
  rw [hnone, Document.member?_inserted hresult, Document.member?_inserted hresults]
  cases htype with
  | id value => rfl
  | name text =>
    show Option.toList <$> (some <$> TypeRef.ofDocument c (.string text)) =
      List.mapM (TypeRef.ofResult c) [.string text]
    rw [List.mapM_cons, List.mapM_nil]
    show _ = TypeRef.ofDocument c (.string text) >>= fun type => pure [type]
    cases TypeRef.ofDocument c (.string text) <;> rfl

/-- The only result of a function is read alike by itself and in a list. -/
theorem Function.alike_onlyResult {type : Document} (htype : type.IsReference)
    (hresult : Document.Lacks (before ++ after) "result")
    (hresults : Document.Lacks (before ++ after) "results") :
    Position.function.Alike (.object (before ++ (.text "result", type) :: after))
      (.object (before ++ (.text "results", .list [type]) :: after)) := by
  have hsame : ∀ name, name ≠ "result" → name ≠ "results" →
      member? (before ++ (.text "result", type) :: after) name =
        member? (before ++ (.text "results", .list [type]) :: after) name := by
    intro name hne hne'
    rw [Document.member?_inserted_of_ne hne, Document.member?_inserted_of_ne hne']
  refine alike_of_member? (fun name hname => ?_) (fun c => ?_)
    (Function.resultsOf_onlyResult htype hresult hresults)
  · simp only [List.mem_cons, List.not_mem_nil, or_false, not_or] at hname
    exact hsame name hname.2.1 hname.2.2
  · rw [hsame "kind" (by decide) (by decide)]

/-- A function that is not said to be attached is read as one that is said not to be. -/
theorem Function.alike_freestanding (hkind : Document.Lacks (before ++ after) "kind") :
    Position.function.Alike (.object (before ++ after))
      (.object (before ++ (.text "kind", .string "freestanding") :: after)) := by
  have hsame : ∀ name, name ≠ "kind" → member? (before ++ after) name =
      member? (before ++ (.text "kind", .string "freestanding") :: after) name := fun name hne =>
    (Document.member?_inserted_of_ne hne _).symm
  refine alike_of_member? (fun name hname => ?_) (fun c => ?_) (fun c => ?_)
  · simp only [List.mem_cons, List.not_mem_nil, or_false, not_or] at hname
    exact hsame name hname.1
  · rw [Document.member?_of_lacks hkind, Document.member?_inserted hkind]
    rfl
  · unfold Function.resultsOf Document.member
    rw [hsame "result" (by decide), hsame "results" (by decide)]

end Functions

/-- **Values in other spellings are read alike.** -/
theorem Position.Respells.alike {p : Position} {d d' : Document} (h : p.Respells d d') :
    p.Alike d d' := by
  induction h with
  | float32 => exact fun c => ⟨.of_eq rfl, .of_eq rfl⟩
  | float64 => exact fun c => ⟨.of_eq rfl, .of_eq rfl⟩
  | docs text => exact rfl
  | @flag name hname =>
    refine fun c => .of_eq ?_
    show Except.ok name = if name = "" then misplaced c (.missingText "name") else .ok name
    rw [if_neg hname]
  | itemInterface id => exact fun c => .of_eq rfl
  | result htype => cases htype <;> exact fun c => .of_eq rfl
  | onlyResult htype _ _ hresult hresults => exact Function.alike_onlyResult htype hresult hresults
  | freestanding _ _ hkind => exact Function.alike_freestanding hkind
  | absent hkey _ _ hlacks =>
    exact (MembersAlike.of_absent hkey hlacks).alike_object (isRecord_of_mem_optional hkey)
  | @member p q key hmember value value' h before after ih =>
    have hobject := MembersAlike.of_replaced hmember ih before after
    cases p with
    | kind => exact alike_kind hmember ih h.isShowable_eq before after
    | item => exact alike_item hmember ih h.isShowable_eq before after
    | typeRef | docs | itemInterface | listOf | mapOf => cases hmember
    | _ => exact hobject.alike_object rfl
  | @item p _ _ _ before after ih =>
    exact .inr ⟨_, _, rfl, rfl, forall₂_replaced (fun d => p.alike_refl d) ih before after⟩
  | @entry p _ _ _ key before after ih =>
    exact .inr ⟨_, _, rfl, rfl,
      forall₂_replaced (fun entry => ⟨rfl, p.alike_refl entry.2⟩) ⟨rfl, ih⟩ before after⟩

/-- **Documents that differ in spellings are read alike**: they have the same graph, or they are
refused with errors of one class. -/
theorem Graph.sameOutcome_ofDocument {d d' : Document} (h : Position.document.Respelled d d') :
    SameOutcome (Graph.ofDocument d) (Graph.ofDocument d') := by
  have hequivalence := (sameOutcome_equivalence (α := Graph)).comap Graph.ofDocument
  exact hequivalence.eqvGen_iff.mp (h.mono fun _ _ => Position.Respells.alike)

/-- A function with its documentation and its result by themselves. -/
def Document.areaByItself : Document :=
  .object [(.text "name", .string "area"), (.text "docs", .string "The area of a disc."),
    (.text "result", .string "float64")]

/-- The same function with each of them in an object or a list. -/
def Document.areaInObjects : Document :=
  .object [(.text "name", .string "area"), (.text "kind", .string "freestanding"),
    (.text "docs", .object [(.text "contents", .string "The area of a disc.")]),
    (.text "results", .list [.object [(.text "type", .string "f64")]])]

/-- The members of a document in which a world imports a function and a type has one flag. -/
def Document.withFlag (function flag : Document) : List (Scalar × Document) :=
  [(.text "types", .list [.object [(.text "name", .string "access"),
      (.text "kind", .object [(.text "flags", .object [(.text "flags", .list [flag])])])]]),
    (.text "worlds", .list [.object [(.text "name", .string "shapes"),
      (.text "imports", .object [(.text "area", .object [(.text "function", function)])])]])]

/-- The spellings of the function are replaced one by one. -/
theorem Document.respelled_area : Position.function.Respelled areaByItself areaInObjects := by
  refine .trans (.of_respells (.freestanding [(.text "name", .string "area")] _ ?_)) ?_
  · simp [Document.Lacks]
  refine .trans (.of_respells (.member rfl (.docs _) [_, _] _)) ?_
  refine .trans (.of_respells (.onlyResult (.name "float64") [_, _, _] [] ?_ ?_)) ?_
  · simp [Document.Lacks]
  · simp [Document.Lacks]
  have hresult : Position.result.Respelled (.string "float64")
      (.object [(.text "type", .string "f64")]) :=
    .trans (.of_respells (.result (.name "float64")))
      (.symm (.of_respells (.member rfl .float64 [] [])))
  exact .member rfl (.item hresult [] []) [_, _, _] []

/-- The spellings of the flag and the function are replaced in the document. -/
theorem Document.respelled_withFlag :
    Position.document.Respelled (.object (withFlag areaByItself (.string "read")))
      (.object ((.text "interfaces", .null) ::
        withFlag areaInObjects (.object [(.text "name", .string "read")]))) := by
  have hflag : Position.flag.Respelled (.string "read")
      (.object [(.text "name", .string "read")]) :=
    .of_respells (.flag (by decide))
  have hkind : Position.kind.Respelled
      (.object [(.text "flags", .object [(.text "flags", .list [.string "read"])])])
      (.object [(.text "flags", .object [
        (.text "flags", .list [.object [(.text "name", .string "read")]])])]) :=
    .member rfl (.member rfl (.item hflag [] []) [] []) [] []
  have himports : (Position.mapOf .item).Respelled
      (.object [(.text "area", .object [(.text "function", areaByItself)])])
      (.object [(.text "area", .object [(.text "function", areaInObjects)])]) :=
    .entry (.member rfl respelled_area [] []) (.text "area") [] []
  refine .trans (.member rfl (.item (.member rfl hkind [_] []) [] []) [] [_]) ?_
  refine .trans (.member rfl (.item (.member rfl himports [_] []) [] []) [_] []) ?_
  exact .of_respells (.absent (by decide) [] _ (by simp [Document.Lacks]))

/-- The two documents stand for one graph. -/
theorem Graph.sameOutcome_ofDocument_withFlag :
    let older : Document := .object (Document.withFlag .areaByItself (.string "read"))
    let newer : Document := .object ((.text "interfaces", .null) ::
        Document.withFlag .areaInObjects (.object [(.text "name", .string "read")]))
    Position.document.Respelled older newer ∧
      SameOutcome (Graph.ofDocument older) (Graph.ofDocument newer) ∧
      (Graph.ofDocument older).toOption.isSome = true :=
  ⟨Document.respelled_withFlag, Graph.sameOutcome_ofDocument Document.respelled_withFlag, by rfl⟩

end ComponentBindings
