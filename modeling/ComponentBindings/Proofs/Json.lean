import ComponentBindings.Proofs.Decoded

/-!
# Documents that are JSON

A document can be more than JSON has: its members may be named by numbers and
dates, its scalars may be dates themselves, and its collections may contain
themselves. `Document.isJson` leaves these out. What a JSON document is worth
is that its names are texts. The keys under which a world lists its items are
names of members, and they go wherever the name of an inline interface goes,
so they had better be texts (`World.keysAreTexts_of_ofDocument`).
-/

namespace ComponentBindings

/-- A scalar that JSON has. -/
def Scalar.isJson : Scalar → Bool
  | .null | .bool _ | .int _ | .float _ | .text _ => true
  | .date _ | .moment _ => false

/-- A scalar that is a text. -/
def Scalar.isText : Scalar → Bool
  | .text _ => true
  | _ => false

/-- A scalar that is a text is one. -/
theorem Scalar.exists_text_of_isText {s : Scalar} (h : s.isText = true) :
    ∃ value, s = .text value := by
  cases s with
  | text value => exact ⟨value, rfl⟩
  | null | bool _ | int _ | float _ | date _ | moment _ => cases h

namespace Document

mutual

/-- **A document that is JSON**: its scalars are those of JSON, its members
are named by texts, and nothing contains itself. -/
def isJson : Document → Bool
  | .scalar s => s.isJson
  | .list items => itemsAreJson items
  | .object members => membersAreJson members
  | .recurring _ _ | .again _ => false

/-- Values that are JSON. -/
def itemsAreJson : List Document → Bool
  | [] => true
  | item :: rest => item.isJson && itemsAreJson rest

/-- Members that are JSON, under names that are texts. -/
def membersAreJson : List (Scalar × Document) → Bool
  | [] => true
  | (name, value) :: rest => name.isText && value.isJson && membersAreJson rest

end

/-- A list is JSON when its items are. -/
theorem isJson_list {items : List Document} :
    (list items).isJson = true ↔ ∀ item ∈ items, item.isJson = true := by
  rw [isJson]
  induction items with
  | nil => simp [itemsAreJson]
  | cons item rest ih => simp [itemsAreJson, ih]

/-- An object is JSON when its members are, and are named by texts. -/
theorem isJson_object {members : List (Scalar × Document)} :
    (object members).isJson = true ↔
      ∀ entry ∈ members, entry.1.isText = true ∧ entry.2.isJson = true := by
  rw [isJson]
  induction members with
  | nil => simp [membersAreJson]
  | cons entry rest ih => simp [membersAreJson, ih]

/-- JSON has no labels to open. -/
theorem bare_of_isJson {value : Document} (h : value.isJson = true) : value.bare = value := by
  cases value with
  | scalar _ | list _ | object _ => rfl
  | recurring _ _ | again _ => cases h

/-- A value that is found under a name has been put there. -/
theorem exists_mem_of_member? {members : List (Scalar × Document)} {name : String}
    {value : Document} (h : member? members name = some value) : ∃ key, (key, value) ∈ members := by
  unfold member? at h
  obtain ⟨before, after, rfl, -⟩ := List.lookup_eq_some_iff.mp h
  exact ⟨.text name, by simp⟩

/-- The members of a JSON object are JSON, absent ones included. -/
theorem isJson_member {members : List (Scalar × Document)} (h : (object members).isJson = true)
    (name : String) : (member members name).isJson = true := by
  unfold member
  cases hfound : member? members name with
  | none => rfl
  | some value =>
    obtain ⟨key, hkey⟩ := exists_mem_of_member? hfound
    exact (isJson_object.mp h _ hkey).2

/-- The members of a JSON value are those of an object. -/
theorem eq_object_of_members {context : String} {value : Document} (hjson : value.isJson = true)
    {ms : List (Scalar × Document)} (h : value.members context = .ok ms) : value = .object ms := by
  unfold members at h
  rw [bare_of_isJson hjson] at h
  split at h
  · cases h
    rfl
  · cases h

/-- The items of a list in a JSON object are JSON. -/
theorem isJson_of_listMember {key : String} {value : Document} (hjson : value.isJson = true)
    {items : List Document} (h : value.listMember key = .ok items) :
    ∀ item ∈ items, item.isJson = true := by
  unfold listMember at h
  rw [bare_of_isJson hjson] at h
  cases value with
  | object ms =>
    have hmember := isJson_member hjson key
    simp only [bare_of_isJson hmember] at h
    generalize member ms key = found at hmember h
    split at h
    · cases h
      exact fun _ hitem => absurd hitem List.not_mem_nil
    · cases h
      exact isJson_list.mp hmember
    · cases h
  | scalar _ | list _ | recurring _ _ | again _ => cases h

/-- The names in an object in a JSON object are texts. -/
theorem isText_of_objectMember {key context : String} {ms entries : List (Scalar × Document)}
    (hjson : (object ms).isJson = true) (h : objectMember ms key context = .ok entries) :
    ∀ entry ∈ entries, entry.1.isText = true := by
  unfold objectMember at h
  have hmember := isJson_member hjson key
  rw [bare_of_isJson hmember] at h
  generalize member ms key = found at hmember h
  split at h
  · cases h
    exact fun _ hentry => absurd hentry List.not_mem_nil
  · cases h
    exact fun entry hentry => (isJson_object.mp hmember entry hentry).1
  · cases h

end Document

/-- The items of a world are listed under texts. -/
def World.KeysAreTexts (w : World) : Prop :=
  ∀ entry ∈ w.imports ++ w.exports, ∃ key, entry.1 = .text key

/-- What is read under names that are texts is kept under texts. -/
theorem exists_text_of_mapM {read : Scalar × Document → Except Fault (Scalar × WorldItem)}
    (hread : ∀ entry item, read entry = .ok item → item.1 = entry.1)
    {entries : List (Scalar × Document)} {items : List (Scalar × WorldItem)}
    (htexts : ∀ entry ∈ entries, entry.1.isText = true) (h : entries.mapM read = .ok items) :
    ∀ item ∈ items, ∃ key, item.1 = .text key := by
  intro item hitem
  obtain ⟨entry, hentry, hitem⟩ := exists_of_mem_right (forall₂_of_mapM_eq_ok h) hitem
  rw [hread entry item hitem]
  exact Scalar.exists_text_of_isText (htexts entry hentry)

/-- An item of a world is kept under the key that it was read under. -/
theorem World.key_of_item {context : String} {entry : Scalar × Document}
    {item : Scalar × WorldItem}
    (h : (match entry with
      | (key, value) => do
        if !key.isShowable then throw (.unrepresentable .tooLongToShow)
        return (key, ← WorldItem.ofDocument (context ++ "/" ++ key.shown) value) :
      Except Fault (Scalar × WorldItem)) = .ok item) : item.1 = entry.1 := by
  obtain ⟨key, value⟩ := entry
  dsimp only at h
  split at h <;> simp only [except_bind_eq_ok, except_pure_eq_ok] at h
  · obtain ⟨_, hthrow, -⟩ := h
    cases hthrow
  · obtain ⟨_, -, rfl⟩ := h
    rfl

/-- **A world that is read from JSON lists its items under texts.** -/
theorem World.keysAreTexts_of_ofDocument {k : Nat} {value : Document} {w : World}
    (hjson : value.isJson = true) (h : World.ofDocument k value = .ok w) : w.KeysAreTexts := by
  simp only [World.ofDocument, except_bind_eq_ok, except_pure_eq_ok] at h
  obtain ⟨members, hmembers, _, -, _, -, imports, ⟨_, himports, himported⟩, exports,
    ⟨_, hexports, hexported⟩, _, -, rfl⟩ := h
  obtain rfl := Document.eq_object_of_members hjson hmembers
  intro entry hentry
  rcases List.mem_append.mp hentry with hentry | hentry
  · exact exists_text_of_mapM (fun _ _ => World.key_of_item)
      (Document.isText_of_objectMember hjson himports) himported entry hentry
  · exact exists_text_of_mapM (fun _ _ => World.key_of_item)
      (Document.isText_of_objectMember hjson hexports) hexported entry hentry

/-- **The worlds of a graph that is read from JSON list their items under
texts.** -/
theorem Graph.keysAreTexts_of_ofDocument {document : Document} (hjson : document.isJson = true)
    {g : Graph} (h : Graph.ofDocument document = .ok g) {w : World} (hw : w ∈ g.worlds) :
    w.KeysAreTexts := by
  unfold Graph.ofDocument at h
  split at h
  · have hobject := mapError_eq_ok h
    simp only [Graph.ofObject, except_bind_eq_ok, except_pure_eq_ok] at hobject
    obtain ⟨_, -, _, -, _, -, worlds, hworlds, _, -, rfl⟩ := hobject
    obtain ⟨values, hvalues, hread⟩ := except_bind_eq_ok.mp hworlds
    obtain ⟨⟨value, k⟩, hvalue, hw⟩ := exists_of_mem_right (forall₂_of_mapM_eq_ok hread) hw
    exact World.keysAreTexts_of_ofDocument (Document.isJson_of_listMember hjson hvalues value
      (List.fst_mem_of_mem_zipIdx hvalue)) hw
  · cases h

end ComponentBindings
