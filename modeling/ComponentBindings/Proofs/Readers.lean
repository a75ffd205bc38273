import ComponentBindings.Proofs.Faults
import ComponentBindings.Proofs.Json

/-!
# What readers can fail with

A document that is no graph is to be refused, as malformed or because an id
points nowhere. Nearly every step of reading does so: a value is looked at
before it is used, and what has been looked at has the parts that are taken
from it.

There are two gaps. The parameters and the results of a function are walked
without being looked at. A text or an object is walked all the same, and its
parts are then refused; a number or a truth value has no parts, and the walk
itself breaks down (`Document.isWalkable`). And a message shows the value that
it complains about, which cannot be done if there is an integer of thousands
of digits in it (`Document.isShowable`).

`Document.Admits` has the faults that are left: those that the schema is there
for, and those of the two gaps where the document has one. The judgement
`EndsIn` is used with these faults (`Document.Reads`), reader by reader. What
is known of a value that has been read is that its ids are shown wherever the
document is, since the check of the ids complains about them later on.
-/

namespace ComponentBindings

namespace Document

/-! ## Values that can be shown -/

/-- A list can be shown when its items can. -/
theorem isShowable_list {items : List Document} :
    (list items).isShowable = true ↔ ∀ item ∈ items, item.isShowable = true := by
  rw [isShowable]
  induction items with
  | nil => simp [showableItems]
  | cons item rest ih => simp [showableItems, ih]

/-- An object can be shown when its members can, and their names. -/
theorem isShowable_object {members : List (Scalar × Document)} :
    (object members).isShowable = true ↔
      ∀ entry ∈ members, entry.1.isShowable = true ∧ entry.2.isShowable = true := by
  rw [isShowable]
  induction members with
  | nil => simp [showableMembers]
  | cons entry rest ih => simp [showableMembers, ih]

section Fill

variable {label : Nat} {value : Document}

mutual

/-- A value can be shown with one that can be shown in place of a label. -/
theorem isShowable_fill (hvalue : value.isShowable = true) :
    ∀ d : Document, d.isShowable = true → (fill label value d).isShowable = true
  | .scalar _, h => h
  | .list items, h => by
    rw [isShowable] at h
    rw [fill, isShowable]
    exact showableItems_fill hvalue items h
  | .object members, h => by
    rw [isShowable] at h
    rw [fill, isShowable]
    exact showableMembers_fill hvalue members h
  | .recurring l content, h => by
    rw [fill]
    split
    · exact h
    · rw [isShowable] at h ⊢
      exact isShowable_fill hvalue content h
  | .again l, _ => by
    rw [fill]
    split
    · exact hvalue
    · rfl

/-- The values of a list can be shown after the same. -/
theorem showableItems_fill (hvalue : value.isShowable = true) :
    ∀ items, showableItems items = true → showableItems (fillItems label value items) = true
  | [], _ => rfl
  | item :: rest, h => by
    rw [showableItems, Bool.and_eq_true] at h
    rw [fillItems, showableItems, isShowable_fill hvalue item h.1,
      showableItems_fill hvalue rest h.2, Bool.and_self]

/-- The members of an object can be shown after the same. -/
theorem showableMembers_fill (hvalue : value.isShowable = true) :
    ∀ members, showableMembers members = true →
      showableMembers (fillMembers label value members) = true
  | [], _ => rfl
  | (name, member) :: rest, h => by
    rw [showableMembers, Bool.and_eq_true, Bool.and_eq_true] at h
    rw [fillMembers, showableMembers, h.1.1, isShowable_fill hvalue member h.1.2,
      showableMembers_fill hvalue rest h.2]
    rfl

end

end Fill

/-- A value can be shown when it is opened by one level. -/
theorem isShowable_bare {value : Document} (h : value.isShowable = true) :
    value.bare.isShowable = true := by
  cases value with
  | recurring label content => exact isShowable_fill h content (by rwa [isShowable] at h)
  | scalar _ | list _ | object _ | again _ => exact h

/-- The members of an object that can be shown can be shown, absent ones
included. -/
theorem isShowable_member {members : List (Scalar × Document)}
    (h : ∀ entry ∈ members, entry.1.isShowable = true ∧ entry.2.isShowable = true)
    (name : String) : (member members name).isShowable = true := by
  unfold member
  cases hfound : member? members name with
  | none => rfl
  | some value =>
    obtain ⟨key, hkey⟩ := exists_mem_of_member? hfound
    exact (h _ hkey).2

/-! ## Functions that cannot be walked -/

/-- **Whether a value can be walked as a list.** Of the values without parts,
texts can, and those that count as empty. -/
def isWalkable (value : Document) : Bool :=
  match value.bare with
  | .list _ | .object _ | .string _ => true
  | other => other.isEmpty

/-- The values that can be walked are those that have parts to give. -/
theorem isWalkable_iff {value : Document} :
    value.isWalkable = true ↔ ∃ parts, value.enumerate = .ok parts := by
  unfold isWalkable enumerate
  generalize value.bare = opened
  split
  · simp
  · simp
  · simp
  · by_cases hempty : opened.isEmpty = true <;> simp [hempty]

/-- Whether a function has parameters, or results in place of a result, that
cannot be walked. -/
def isUnwalkable (function : Document) : Bool :=
  match function.bare with
  | .object members =>
    !(member members "params").isWalkable ||
      (member? members "result").isNone && !(member members "results").isWalkable
  | _ => false

/-- **A function of a document**: among those of an interface, or among the
items of a world. -/
inductive HasFunction (document function : Document) : Prop
  /-- A function of an interface. -/
  | interface {interfaces : List Document} {i : Document}
      {members functions : List (Scalar × Document)} {key : Scalar} :
      document.listMember "interfaces" = .ok interfaces → i ∈ interfaces →
      i.bare = .object members → (member members "functions").bare = .object functions →
      (key, function) ∈ functions → HasFunction document function
  /-- A function of a world. -/
  | world {worlds : List Document} {w item : Document} {side : String}
      {members items : List (Scalar × Document)} {key : Scalar} :
      document.listMember "worlds" = .ok worlds → w ∈ worlds → w.bare = .object members →
      side = "imports" ∨ side = "exports" → (member members side).bare = .object items →
      (key, item) ∈ items → item.bare = .object [(.text "function", function)] →
      HasFunction document function

/-- Some function of a document cannot be walked. -/
def HasUnwalkable (document : Document) : Prop :=
  ∃ function, document.HasFunction function ∧ function.isUnwalkable = true

/-! ## What a document admits -/

/-- **The faults that reading a document may end with**: a departure from the
schema or an id that points nowhere, either of which can be shown if the
document can; and where there is something in it that cannot be shown or
walked, this. -/
def Admits (document : Document) : Fault → Prop
  | .malformed what _ => document.isShowable = true → what.isShowable = true
  | .dangling _ id _ => document.isShowable = true → (Scalar.int id).isShowable = true
  | .unrepresentable what => what = .tooLongToShow ∧ document.isShowable = false
  | .notEnumerable => document.HasUnwalkable
  | _ => False

/-- A value is shown wherever a document is. -/
def Shows (document value : Document) : Prop :=
  document.isShowable = true → value.isShowable = true

/-- An id is shown wherever a document is. -/
def ShowsId (document : Document) (id : Int) : Prop :=
  document.isShowable = true → (Scalar.int id).isShowable = true

/-- A type reference is shown wherever a document is. -/
def ShowsRef (document : Document) (ref : TypeRef) : Prop :=
  ∀ id, ref = .defined id → document.ShowsId id

/-- Members are shown wherever a document is, with their names. -/
def ShowsAll (document : Document) (members : List (Scalar × Document)) : Prop :=
  ∀ entry ∈ members,
    (document.isShowable = true → entry.1.isShowable = true) ∧ document.Shows entry.2

variable {document value : Document} {members : List (Scalar × Document)} {context key : String}

/-- Something is read that ends as a document admits. -/
abbrev Reads {α : Type} (document : Document) (Q : α → Prop) : Except Fault α → Prop :=
  EndsIn document.Admits Q

/-- What is shown is shown when it is opened. -/
theorem Shows.bare (h : document.Shows value) : document.Shows value.bare :=
  fun hshow => isShowable_bare (h hshow)

/-- The items of a list that is shown are shown. -/
theorem Shows.of_mem {items : List Document} (h : document.Shows (.list items)) :
    ∀ item ∈ items, document.Shows item :=
  fun item hitem hshow => isShowable_list.mp (h hshow) item hitem

/-- The members of an object that is shown are shown. -/
theorem Shows.showsAll (h : document.Shows (.object members)) : document.ShowsAll members :=
  fun entry hentry => ⟨fun hshow => (isShowable_object.mp (h hshow) entry hentry).1,
    fun hshow => (isShowable_object.mp (h hshow) entry hentry).2⟩

/-- A member of an object that is shown is shown. -/
theorem ShowsAll.member (h : document.ShowsAll members) (name : String) :
    document.Shows (member members name) :=
  fun hshow => isShowable_member
    (fun entry hentry => (h entry hentry).imp (· hshow) (· hshow)) name

/-- A member of an object that is shown is shown, if it is there. -/
theorem ShowsAll.member? (h : document.ShowsAll members) {name : String} {value : Document}
    (hvalue : Document.member? members name = some value) : document.Shows value := by
  obtain ⟨key, hkey⟩ := exists_mem_of_member? hvalue
  exact (h _ hkey).2

/-! ## Readers of values -/

/-- A list is read, or there is none. -/
theorem reads_listMember (h : document.Shows value) :
    document.Reads (fun items => value.listMember key = .ok items ∧
      ∀ item ∈ items, document.Shows item) (value.listMember key) := by
  unfold listMember
  split
  · next ms hms =>
    have hmember := ((hms ▸ h.bare).showsAll.member key).bare
    split
    · exact ⟨rfl, fun item hitem => absurd hitem List.not_mem_nil⟩
    · next items hitems => exact ⟨rfl, (hitems ▸ hmember).of_mem⟩
    · exact fun _ => rfl
  · exact h

/-- An object is read, or there is none. -/
theorem reads_objectMember (h : document.ShowsAll members) :
    document.Reads (fun entries => document.ShowsAll entries ∧
      (entries = [] ∨ (member members key).bare = .object entries))
      (objectMember members key context) := by
  unfold objectMember
  have hmember := (h.member key).bare
  split
  · exact ⟨fun entry hentry => absurd hentry List.not_mem_nil, .inl rfl⟩
  · next entries hentries => exact ⟨(hentries ▸ hmember).showsAll, .inr hentries⟩
  · exact fun _ => rfl

/-- The members of an object are read. -/
theorem reads_members (h : document.Shows value) :
    document.Reads (fun ms => value.bare = .object ms ∧ document.ShowsAll ms)
      (value.members context) := by
  unfold Document.members
  split
  · next ms hms => exact ⟨hms, (hms ▸ h.bare).showsAll⟩
  · exact fun _ => rfl

/-- A text is read. -/
theorem reads_textMember : document.Reads (fun _ => True) (textMember members key context) := by
  unfold textMember
  split
  · split
    · exact fun _ => rfl
    · trivial
  · exact fun _ => rfl

/-- An id is read. -/
theorem reads_id (h : document.Shows value) :
    document.Reads document.ShowsId (value.id context) := by
  unfold Document.id
  split
  · exact h
  · exact h

/-- An id is read, or there is none. -/
theorem reads_optionalId (h : document.Shows value) :
    document.Reads (fun found => ∀ id, found = some id → document.ShowsId id)
      (value.optionalId context) := by
  unfold optionalId
  split
  · exact fun _ hid => absurd hid nofun
  · refine (reads_id h).bind fun id hid => ?_
    rintro _ ⟨rfl⟩
    exact hid

/-- An object with one member is read. -/
theorem reads_single (h : document.Shows value) :
    document.Reads (fun entry => value.bare = .object [entry] ∧
      (document.isShowable = true → entry.1.isShowable = true) ∧ document.Shows entry.2)
      (value.single context) := by
  unfold single
  split
  · next entry hentry =>
    exact ⟨hentry, (hentry ▸ h.bare).showsAll entry (List.mem_singleton_self entry)⟩
  · exact h

/-- A documentation comment is read. -/
theorem reads_docs : document.Reads (fun _ => True) (docs members) := by
  unfold docs
  dsimp only
  split
  · trivial
  · trivial
  · exact fun _ => rfl

/-- A value is walked, unless it cannot be. -/
theorem reads_enumerate (h : document.Shows value)
    (hwalk : value.isWalkable = false → document.HasUnwalkable) :
    document.Reads (fun parts => ∀ part ∈ parts, document.Shows part) value.enumerate := by
  unfold isWalkable at hwalk
  unfold enumerate
  split
  · next items hitems => exact (hitems ▸ h.bare).of_mem
  · next ms hms =>
    rintro part hpart
    obtain ⟨entry, hentry, rfl⟩ := List.mem_map.mp hpart
    exact ((hms ▸ h.bare).showsAll entry hentry).1
  · rintro part hpart
    obtain ⟨c, -, rfl⟩ := List.mem_map.mp hpart
    exact fun _ => rfl
  · split
    · exact fun part hpart => absurd hpart List.not_mem_nil
    · next hempty => exact hwalk (by simpa using hempty)

end Document

open Document (Reads Shows ShowsId ShowsRef ShowsAll member member?)

variable {document value : Document} {members : List (Scalar × Document)} {context key : String}

/-! ## Readers of types and functions -/

/-- A type reference is read. -/
theorem TypeRef.reads_ofDocument (h : document.Shows value) :
    document.Reads document.ShowsRef (TypeRef.ofDocument context value) := by
  unfold TypeRef.ofDocument
  split
  · split
    · exact fun _ => nofun
    · exact fun _ => rfl
  · refine (Document.reads_id h).bind fun id hid => ?_
    rintro _ ⟨rfl⟩
    exact hid

/-- A type reference is read, or there is none. -/
theorem TypeRef.reads_ofOptional (h : document.Shows value) :
    document.Reads (fun found => ∀ ref ∈ found.toList, document.ShowsRef ref)
      (TypeRef.ofOptional context value) := by
  unfold TypeRef.ofOptional
  split
  · exact fun _ hmem => absurd hmem List.not_mem_nil
  · refine (TypeRef.reads_ofDocument h).bind fun ref href => ?_
    exact fun other hother => List.mem_singleton.mp hother ▸ href

/-- The type of a result is read. -/
theorem TypeRef.reads_ofResult (h : document.Shows value) :
    document.Reads document.ShowsRef (TypeRef.ofResult context value) := by
  unfold TypeRef.ofResult
  split
  · next ms hms => exact TypeRef.reads_ofDocument ((hms ▸ h.bare).showsAll.member "type")
  · exact TypeRef.reads_ofDocument h

/-- An attachment is read. -/
theorem Attachment.reads_ofDocument {found : Option Document}
    (h : ∀ value, found = some value → document.Shows value) :
    document.Reads (fun a => ∀ id, a.resource? = some id → document.ShowsId id)
      (Attachment.ofDocument context found) := by
  unfold Attachment.ofDocument
  split
  · exact fun _ => nofun
  · exact fun _ => nofun
  · refine (Document.reads_single (h _ rfl)).bind fun ⟨tag, target⟩ ⟨_, htag, htarget⟩ => ?_
    have hid : ∀ build : Int → Attachment, (∀ id, (build id).resource? = some id) →
        document.Reads (fun a => ∀ id, a.resource? = some id → document.ShowsId id)
          (build <$> target.id context) := by
      intro build hbuild
      refine EndsIn.bind (Document.reads_id htarget) fun id hid => ?_
      intro other hother
      rw [hbuild, Option.some.injEq] at hother
      exact hother ▸ hid
    dsimp only
    split
    · exact hid .method fun _ => rfl
    · exact hid .static fun _ => rfl
    · exact hid .constructor fun _ => rfl
    · exact htag

/-- A parameter is read. -/
theorem Param.reads_ofDocument (h : document.Shows value) :
    document.Reads (fun p => document.ShowsRef p.type) (Param.ofDocument context value) := by
  refine (Document.reads_members h).bind fun ms ⟨_, hms⟩ => ?_
  refine Document.reads_textMember.bind fun name _ => ?_
  exact (TypeRef.reads_ofDocument (hms.member "type")).bind fun ref href => href

/-- The ids of a function are shown wherever a document is. -/
structure Function.ShownIn (document : Document) (f : Function) : Prop where
  /-- The types of the parameters are. -/
  params : ∀ p ∈ f.params, document.ShowsRef p.type
  /-- The types of the results are. -/
  results : ∀ ref ∈ f.results, document.ShowsRef ref
  /-- The resource that the function belongs to is. -/
  attachment : ∀ id, f.attachment.resource? = some id → document.ShowsId id

/-- A function of a document is read. -/
theorem Function.reads_ofDocument (h : document.Shows value) (hf : document.HasFunction value) :
    document.Reads (Function.ShownIn document) (Function.ofDocument context value) := by
  refine (Document.reads_members h).bind fun ms ⟨hbare, hms⟩ => ?_
  have hunwalkable : value.isUnwalkable = true → document.HasUnwalkable := fun hnot =>
    ⟨value, hf, hnot⟩
  rw [Document.isUnwalkable, hbare] at hunwalkable
  refine Document.reads_textMember.bind fun name _ => ?_
  refine (Attachment.reads_ofDocument fun value hvalue => hms.member? hvalue).bind fun a ha => ?_
  refine (Document.reads_enumerate (hms.member "params") fun hnot => hunwalkable (by
    simp [hnot])).bind fun parts hparts => ?_
  refine (EndsIn.mapM fun part hpart => Param.reads_ofDocument (hparts part hpart)).bind
    fun params hparams => ?_
  have hresults : document.Reads (fun refs => ∀ ref ∈ refs, document.ShowsRef ref)
      (Function.resultsOf ms (context ++ "/" ++ name)) := by
    unfold Function.resultsOf
    split
    · next result hresult =>
      exact (TypeRef.reads_ofOptional (hms.member? hresult)).bind fun ref href => href
    · next hresult =>
      refine (Document.reads_enumerate (hms.member "results") fun hnot => hunwalkable (by
        simp [hnot, hresult])).bind fun parts hparts => ?_
      exact EndsIn.mapM fun part hpart => TypeRef.reads_ofResult (hparts part hpart)
  refine EndsIn.bind hresults fun results hresults => ?_
  exact Document.reads_docs.bind fun docs _ => ⟨hparams, hresults, ha⟩

/-- A name is read, or there is none. -/
theorem reads_nameOf {what : Malformation} (hwhat : what.isShowable = true) :
    document.Reads (fun _ => True) (nameOf members context what) := by
  unfold nameOf
  split
  · trivial
  · trivial
  · exact fun _ => hwhat

/-- The owner of a type is read. -/
theorem TypeOwner.reads_ofDocument (h : document.Shows value) :
    document.Reads (fun owner => ∀ id, owner = some (.interface id) ∨ owner = some (.world id) →
      document.ShowsId id) (TypeOwner.ofDocument context value) := by
  unfold TypeOwner.ofDocument
  split
  · rintro id (hid | hid) <;> cases hid
  · refine (Document.reads_single h).bind fun ⟨tag, target⟩ ⟨_, htag, htarget⟩ => ?_
    dsimp only
    split
    · refine EndsIn.bind (Document.reads_id htarget) fun id hid => ?_
      rintro other (hother | hother) <;> cases hother
      exact hid
    · refine EndsIn.bind (Document.reads_id htarget) fun id hid => ?_
      rintro other (hother | hother) <;> cases hother
      exact hid
    · exact htag

/-- A field is read. -/
theorem Field.reads_ofDocument (h : document.Shows value) :
    document.Reads (fun f => document.ShowsRef f.type) (Field.ofDocument context value) := by
  refine (Document.reads_members h).bind fun ms ⟨_, hms⟩ => ?_
  refine Document.reads_textMember.bind fun name _ => ?_
  refine (TypeRef.reads_ofDocument (hms.member "type")).bind fun ref href => ?_
  exact Document.reads_docs.bind fun docs _ => href

/-- A case of a variant is read. -/
theorem Case.reads_ofDocument (h : document.Shows value) :
    document.Reads (fun c => ∀ ref ∈ c.payload.toList, document.ShowsRef ref)
      (Case.ofDocument context value) := by
  refine (Document.reads_members h).bind fun ms ⟨_, hms⟩ => ?_
  refine Document.reads_textMember.bind fun name _ => ?_
  refine (TypeRef.reads_ofOptional (hms.member "type")).bind fun payload hpayload => ?_
  exact Document.reads_docs.bind fun docs _ => hpayload

/-- A case of an enumeration is read. -/
theorem Label.reads_ofDocument (h : document.Shows value) :
    document.Reads (fun _ => True) (Label.ofDocument context value) :=
  (Document.reads_members h).bind fun _ _ => Document.reads_textMember.bind fun _ _ =>
    Document.reads_docs.bind fun _ _ => trivial

/-- The name of a flag is read. -/
theorem reads_flagName (h : document.Shows value) :
    document.Reads (fun _ => True) (flagName context value) := by
  unfold flagName
  split
  · trivial
  · exact (Document.reads_members h).bind fun ms _ => Document.reads_textMember

/-- The ids of a kind are shown wherever a document is. -/
structure TypeKind.ShownIn (document : Document) (kind : TypeKind) : Prop where
  /-- What the kind is made of is. -/
  parts : ∀ ref ∈ kind.parts, document.ShowsRef ref
  /-- The resource behind a handle is. -/
  handle : ∀ id borrowed, kind = .handle id borrowed → document.ShowsId id

/-- A handle is read. -/
theorem TypeKind.reads_handleOf (h : document.Shows value) :
    document.Reads (TypeKind.ShownIn document) (TypeKind.handleOf context value) := by
  refine (Document.reads_single h).bind fun ⟨tag, target⟩ ⟨_, htag, htarget⟩ => ?_
  have hhandle : ∀ id borrowed, document.ShowsId id →
      TypeKind.ShownIn document (.handle id borrowed) := by
    refine fun id borrowed hid => ⟨fun ref href => absurd href List.not_mem_nil, ?_⟩
    rintro _ _ ⟨rfl⟩
    exact hid
  dsimp only
  split
  · exact EndsIn.bind (Document.reads_id htarget) fun id hid => hhandle id false hid
  · exact EndsIn.bind (Document.reads_id htarget) fun id hid => hhandle id true hid
  · exact htag

/-- A result is read. -/
theorem TypeKind.reads_resultOf (h : document.Shows value) :
    document.Reads (TypeKind.ShownIn document) (TypeKind.resultOf context value) := by
  unfold TypeKind.resultOf
  split
  · next ms hms =>
    have hshown := (hms ▸ h.bare).showsAll
    refine (TypeRef.reads_ofOptional (hshown.member "ok")).bind fun ok hok => ?_
    refine (TypeRef.reads_ofOptional (hshown.member "err")).bind fun err herr => ?_
    exact ⟨List.forall_mem_append.mpr ⟨hok, herr⟩, nofun⟩
  · exact fun _ => rfl

/-- **The kind of a type is read.** -/
theorem TypeKind.reads_ofDocument (h : document.Shows value) :
    document.Reads (TypeKind.ShownIn document) (TypeKind.ofDocument context value) := by
  unfold TypeKind.ofDocument
  split
  · exact ⟨fun ref href => absurd href List.not_mem_nil, nofun⟩
  refine (Document.reads_single h).bind fun ⟨tag, body⟩ ⟨_, htag, hbody⟩ => ?_
  -- What a list in the body is made of.
  have hlist : ∀ {α : Type} {key : String} {read : Document → Except Fault α} {Q : α → Prop}
      (build : List α → TypeKind), (∀ item, document.Shows item → document.Reads Q (read item)) →
        (∀ xs, (∀ x ∈ xs, Q x) → (build xs).ShownIn document) →
          document.Reads (TypeKind.ShownIn document)
            (do return build (← (← body.listMember key).mapM read)) := by
    intro α key read Q build hread hbuild
    refine (Document.reads_listMember hbody).bind fun items ⟨_, hitems⟩ => ?_
    exact (EndsIn.mapM fun item hitem => hread item (hitems item hitem)).bind hbuild
  have hone : ∀ build : TypeRef → TypeKind, (∀ ref, (build ref).parts = [ref]) →
      (∀ ref id borrowed, build ref ≠ .handle id borrowed) →
        document.Reads (TypeKind.ShownIn document)
          (do return build (← TypeRef.ofDocument context body)) := by
    intro build hparts hhandle
    refine (TypeRef.reads_ofDocument hbody).bind fun ref href => ⟨fun other hother => ?_,
      fun id borrowed heq => absurd heq (hhandle ref id borrowed)⟩
    rw [hparts, List.mem_singleton] at hother
    exact hother ▸ href
  have hoptional : ∀ build : Option TypeRef → TypeKind, (∀ ref, (build ref).parts = ref.toList) →
      (∀ ref id borrowed, build ref ≠ .handle id borrowed) →
        document.Reads (TypeKind.ShownIn document)
          (do return build (← TypeRef.ofOptional context body)) := by
    intro build hparts hhandle
    refine (TypeRef.reads_ofOptional hbody).bind fun ref href => ⟨fun other hother => ?_,
      fun id borrowed heq => absurd heq (hhandle ref id borrowed)⟩
    rw [hparts] at hother
    exact href other hother
  dsimp only
  split
  · exact hlist .record (fun _ => Field.reads_ofDocument) fun fields hfields =>
      ⟨List.forall_mem_map.mpr hfields, nofun⟩
  · refine hlist .variant (fun _ => Case.reads_ofDocument) fun cases hcases =>
      ⟨fun ref href => ?_, nofun⟩
    obtain ⟨c, hc, hpayload⟩ := List.mem_filterMap.mp href
    exact hcases c hc ref (Option.mem_toList.mpr hpayload)
  · exact hlist .enumeration (fun _ => Label.reads_ofDocument) fun labels _ =>
      ⟨fun ref href => absurd href List.not_mem_nil, nofun⟩
  · exact hlist .flags (fun _ => reads_flagName) fun names _ =>
      ⟨fun ref href => absurd href List.not_mem_nil, nofun⟩
  · exact TypeKind.reads_handleOf hbody
  · exact hone .aliasOf (fun _ => rfl) nofun
  · exact hone .list (fun _ => rfl) nofun
  · exact hone .option (fun _ => rfl) nofun
  · exact hoptional .future (fun _ => rfl) nofun
  · exact hoptional .stream (fun _ => rfl) nofun
  · exact TypeKind.reads_resultOf hbody
  · exact hlist .tuple (fun _ => TypeRef.reads_ofDocument) fun items hitems => ⟨hitems, nofun⟩
  · exact htag

/-! ## Readers of entries -/

/-- The ids of a package are shown wherever a document is. -/
structure Package.ShownIn (document : Document) (p : Package) : Prop where
  /-- The interfaces are. -/
  interfaces : ∀ entry ∈ p.interfaces, document.ShowsId entry.2
  /-- The worlds are. -/
  worlds : ∀ entry ∈ p.worlds, document.ShowsId entry.2

/-- Ids under names are read. -/
theorem reads_ids (h : document.ShowsAll members) :
    document.Reads (fun ids => ∀ entry ∈ ids, document.ShowsId entry.2)
      (members.mapM fun (name, value) => do return (name, ← value.id context) :
        Except Fault (List (Scalar × Int))) :=
  EndsIn.mapM fun ⟨_, _⟩ hentry => EndsIn.bind (Document.reads_id (h _ hentry).2) fun _ hid => hid

/-- A package is read. -/
theorem Package.reads_ofDocument {k : Nat} (h : document.Shows value) :
    document.Reads (Package.ShownIn document) (Package.ofDocument k value) := by
  refine (Document.reads_members h).bind fun ms ⟨_, hms⟩ => ?_
  refine Document.reads_textMember.bind fun text _ => ?_
  have hparse : document.Reads (fun _ => True) (PackageName.parse text) := by
    unfold PackageName.parse
    split
    · trivial
    · exact fun _ => rfl
  refine hparse.bind fun ⟨name, interface⟩ _ => ?_
  have hids : ∀ key context, document.Reads (fun ids => ∀ entry ∈ ids, document.ShowsId entry.2)
      (do (← Document.objectMember ms key context).mapM fun (name, value) => do
        return (name, ← value.id context) : Except Fault (List (Scalar × Int))) :=
    fun key context => (Document.reads_objectMember hms).bind fun entries ⟨hentries, _⟩ =>
      reads_ids hentries
  dsimp only
  split
  · exact fun _ => rfl
  · refine EndsIn.bind (hids _ _) fun interfaces hinterfaces => ?_
    refine EndsIn.bind (hids _ _) fun worlds hworlds => ?_
    exact Document.reads_docs.bind fun docs _ => ⟨hinterfaces, hworlds⟩

/-- The ids of an interface are shown wherever a document is. -/
structure Interface.ShownIn (document : Document) (i : Interface) : Prop where
  /-- The package is. -/
  package : ∀ id, i.package = some id → document.ShowsId id
  /-- The types are. -/
  types : ∀ entry ∈ i.types, document.ShowsId entry.2
  /-- Those of the functions are. -/
  functions : ∀ entry ∈ i.functions, entry.2.ShownIn document

/-- An interface of a document is read. -/
theorem Interface.reads_ofDocument {k : Nat} {interfaces : List Document}
    (hlist : document.listMember "interfaces" = .ok interfaces) (hmem : value ∈ interfaces)
    (h : document.Shows value) :
    document.Reads (Interface.ShownIn document) (Interface.ofDocument k value) := by
  refine (Document.reads_members h).bind fun ms ⟨hbare, hms⟩ => ?_
  refine (reads_nameOf rfl).bind fun name _ => ?_
  refine (Document.reads_optionalId (hms.member "package")).bind fun package hpackage => ?_
  refine (Document.reads_objectMember hms).bind fun types ⟨htypes, _⟩ => ?_
  refine (reads_ids htypes).bind fun types htypes => ?_
  refine (Document.reads_objectMember hms).bind fun functions ⟨hfunctions, hfound⟩ => ?_
  refine EndsIn.bind (Q := fun fs : List (Scalar × Function) =>
    ∀ entry ∈ fs, entry.2.ShownIn document) (EndsIn.mapM fun ⟨key, f⟩ hf => ?_)
    fun functions hfunctions => ?_
  · refine EndsIn.bind (Function.reads_ofDocument (hfunctions _ hf).2 ?_) fun _ hread => hread
    rcases hfound with rfl | hfound
    · cases hf
    · exact .interface hlist hmem hbare hfound hf
  · exact Document.reads_docs.bind fun docs _ => ⟨hpackage, htypes, hfunctions⟩

/-- The ids of a type are shown wherever a document is. -/
structure TypeDef.ShownIn (document : Document) (t : TypeDef) : Prop where
  /-- The owner is. -/
  owner : ∀ id, t.owner = some (.interface id) ∨ t.owner = some (.world id) → document.ShowsId id
  /-- What the type is made of is. -/
  kind : t.kind.ShownIn document

/-- A type is read. -/
theorem TypeDef.reads_ofDocument {k : Nat} (h : document.Shows value) :
    document.Reads (TypeDef.ShownIn document) (TypeDef.ofDocument k value) := by
  refine (Document.reads_members h).bind fun ms ⟨_, hms⟩ => ?_
  refine (reads_nameOf rfl).bind fun name _ => ?_
  refine (TypeOwner.reads_ofDocument (hms.member "owner")).bind fun owner howner => ?_
  refine Document.reads_docs.bind fun docs _ => ?_
  exact (TypeKind.reads_ofDocument (hms.member "kind")).bind fun kind hkind => ⟨howner, hkind⟩

/-- The ids of an item of a world are shown wherever a document is. -/
def WorldItem.ShownIn (document : Document) : WorldItem → Prop
  | .interface id | .type id => document.ShowsId id
  | .function f => f.ShownIn document

/-- An item of a world is read. -/
theorem WorldItem.reads_ofDocument (h : document.Shows value)
    (hf : ∀ f, value.bare = .object [(.text "function", f)] → document.HasFunction f) :
    document.Reads (WorldItem.ShownIn document) (WorldItem.ofDocument context value) := by
  refine (Document.reads_single h).bind fun ⟨tag, body⟩ ⟨hsingle, htag, hbody⟩ => ?_
  dsimp only
  split
  · refine EndsIn.bind (Q := document.ShowsId) ?_ fun id hid => hid
    unfold WorldItem.interfaceId
    split
    · next ms hms => exact Document.reads_id ((hms ▸ hbody.bare).showsAll.member "id")
    · exact Document.reads_id hbody
  · exact (Function.reads_ofDocument hbody (hf body hsingle)).bind fun f hread => hread
  · exact EndsIn.bind (Document.reads_id hbody) fun id hid => hid
  · exact htag

/-- The ids of a world are shown wherever a document is. -/
structure World.ShownIn (document : Document) (w : World) : Prop where
  /-- The package is. -/
  package : ∀ id, w.package = some id → document.ShowsId id
  /-- Those of the items are. -/
  items : ∀ entry ∈ w.imports ++ w.exports, entry.2.ShownIn document

/-- A world of a document is read. -/
theorem World.reads_ofDocument {k : Nat} {worlds : List Document}
    (hlist : document.listMember "worlds" = .ok worlds) (hmem : value ∈ worlds)
    (h : document.Shows value) :
    document.Reads (World.ShownIn document) (World.ofDocument k value) := by
  refine (Document.reads_members h).bind fun ms ⟨hbare, hms⟩ => ?_
  refine Document.reads_textMember.bind fun name _ => ?_
  refine (Document.reads_optionalId (hms.member "package")).bind fun package hpackage => ?_
  have hitems : ∀ side context, side = "imports" ∨ side = "exports" →
      document.Reads (fun items => ∀ entry ∈ items, entry.2.ShownIn document)
        (do (← Document.objectMember ms side context).mapM fun (key, value) => do
          if !key.isShowable then throw (.unrepresentable .tooLongToShow)
          return (key, ← WorldItem.ofDocument (context ++ "/" ++ key.shown) value) :
        Except Fault (List (Scalar × WorldItem))) := by
    intro side context hside
    refine (Document.reads_objectMember hms).bind fun entries ⟨hentries, hfound⟩ => ?_
    refine EndsIn.mapM fun ⟨key, item⟩ hitem => ?_
    dsimp only
    split
    · next hkey =>
      refine ⟨rfl, ?_⟩
      cases hshow : document.isShowable with
      | false => rfl
      | true => simp [(hentries _ hitem).1 hshow] at hkey
    · refine EndsIn.bind (WorldItem.reads_ofDocument (hentries _ hitem).2 fun f hf => ?_)
        fun _ hread => hread
      rcases hfound with rfl | hfound
      · cases hitem
      · exact .world hlist hmem hbare hside hfound hitem hf
  refine EndsIn.bind (hitems _ _ (.inl rfl)) fun imports himports => ?_
  refine EndsIn.bind (hitems _ _ (.inr rfl)) fun exports hexports => ?_
  exact Document.reads_docs.bind fun docs _ =>
    ⟨hpackage, List.forall_mem_append.mpr ⟨himports, hexports⟩⟩

end ComponentBindings
