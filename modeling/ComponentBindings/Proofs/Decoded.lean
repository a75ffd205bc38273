import ComponentBindings.Graph.Decode
import ComponentBindings.Proofs.Emission
import Mathlib.Data.List.TakeWhile

/-!
# What reading a document guarantees

A graph that has been read from a document is orderly (`Graph.Orderly`): the
entries of its arenas know their own positions, so that an entry can be
recognised by its id, and the names of its packages are the parts of an
identity, so that the identity tells them apart.
-/

namespace ComponentBindings

/-- A part of an identity: a text without the marks that separate the
parts. -/
def PackageName.IsPart (text : String) : Prop := ∀ c ∈ text.toList, PackageName.isMark c = false

/-- **A graph whose entries know their positions**, and whose packages are
named by parts of an identity. -/
structure Graph.Orderly (g : Graph) : Prop where
  /-- The type with an id has that id. -/
  typeDef_id : ∀ {id t}, g.typeDef id = .ok t → t.id = id
  /-- A world is found by its id. -/
  world_of_mem : ∀ {w}, w ∈ g.worlds → g.world w.id = .ok w
  /-- A namespace is a part of an identity. -/
  ns_isPart : ∀ {id p}, g.package id = .ok p → PackageName.IsPart p.name.ns
  /-- The name of a package is a part of an identity. -/
  name_isPart : ∀ {id p}, g.package id = .ok p → PackageName.IsPart p.name.name
  /-- A version is no empty text. -/
  version_ne : ∀ {id p}, g.package id = .ok p → p.name.version ≠ some ""

/-! ## Positions -/

/-- An entry of a list of a document is read at its position. -/
theorem Document.exists_read_of_entries {α : Type} {document : Document} {key : String}
    {read : Nat → Document → Except Fault α} {entries : List α}
    (h : document.entries key read = .ok entries) {k : Nat} {x : α} (hx : entries[k]? = some x) :
    ∃ value, read k value = .ok x := by
  simp only [Document.entries, except_bind_eq_ok] at h
  obtain ⟨values, -, h⟩ := h
  have hall := forall₂_of_mapM_eq_ok h
  have hlen := hall.length_eq
  obtain ⟨hk, rfl⟩ := List.getElem?_eq_some_iff.mp hx
  have hk' : k < values.zipIdx.length := by rw [hlen]; exact hk
  have hread := (List.forall₂_iff_get.mp hall).2 k hk' hk
  simp only [List.get_eq_getElem, List.getElem_zipIdx, Nat.zero_add] at hread
  exact ⟨_, hread⟩

/-- An entry that is found in an arena stands at its id. -/
theorem getElem?_of_entryAt {α : Type} {arena : List α} {id : Int} {x : α}
    (h : entryAt arena id = some x) : arena[id.toNat]? = some x ∧ (id.toNat : Int) = id := by
  unfold entryAt at h
  split at h
  · exact ⟨h, by omega⟩
  · cases h

/-- A look-up that succeeds has found an entry. -/
theorem entryAt_of_elim_eq_ok {α : Type} {found : Option α} {e : Fault} {x : α}
    (h : found.elim (.error e : Except Fault α) .ok = .ok x) : found = some x := by
  cases found with
  | none => cases h
  | some y => cases h; rfl

/-- A type is read with its position as its id. -/
theorem TypeDef.id_of_ofDocument {k : Nat} {value : Document} {t : TypeDef}
    (h : TypeDef.ofDocument k value = .ok t) : t.id = k := by
  simp only [TypeDef.ofDocument, except_bind_eq_ok, except_pure_eq_ok] at h
  obtain ⟨_, -, _, -, _, -, _, -, _, -, rfl⟩ := h
  rfl

/-- A world is read with its position as its id. -/
theorem World.id_of_ofDocument {k : Nat} {value : Document} {w : World}
    (h : World.ofDocument k value = .ok w) : w.id = k := by
  simp only [World.ofDocument, except_bind_eq_ok, except_pure_eq_ok] at h
  obtain ⟨_, -, _, -, _, -, _, -, _, -, _, -, rfl⟩ := h
  rfl

/-! ## Package names -/

namespace PackageName

/-- What is taken from the front of an identity is a part of it. -/
theorem isPart_of_takePart {cs rest : List Char} {part : String}
    (h : takePart cs = some (part, rest)) : IsPart part := by
  unfold takePart at h
  split at h
  · cases h
  · next heq =>
    cases h
    intro c hc
    rw [String.toList_ofList] at hc
    simpa using List.mem_takeWhile_imp hc

/-- A version that is taken from the end of an identity is not empty. -/
theorem version_ne_of_takeVersion {cs : List Char} {version : Option String}
    (h : takeVersion cs = some version) : version ≠ some "" := by
  unfold takeVersion at h
  split at h
  · cases h
    simp
  · split at h
    · cases h
    · next hrefused =>
      cases h
      rw [Bool.or_eq_true, not_or, List.isEmpty_iff] at hrefused
      simpa using hrefused.1
  · cases h

/-- A package name that has been read consists of parts of an identity. -/
theorem isPart_of_parse {text : String} {p : PackageName} {i : Option String}
    (h : parse text = .ok (p, i)) : IsPart p.ns ∧ IsPart p.name ∧ p.version ≠ some "" := by
  unfold parse at h
  split at h
  · next parsed hparsed =>
    cases h
    simp only [parse?, Option.bind_eq_bind, Option.bind_eq_some_iff] at hparsed
    obtain ⟨⟨ns, rest⟩, hns, hparsed⟩ := hparsed
    split at hparsed
    · simp only [Option.bind_eq_some_iff] at hparsed
      obtain ⟨⟨name, rest⟩, hname, hparsed⟩ := hparsed
      have hnsPart := isPart_of_takePart hns
      have hnamePart := isPart_of_takePart hname
      dsimp only at hparsed
      split at hparsed
      · simp only [Option.bind_eq_some_iff] at hparsed
        obtain ⟨⟨_, _⟩, -, version, hversion, hp⟩ := hparsed
        cases hp
        exact ⟨hnsPart, hnamePart, version_ne_of_takeVersion hversion⟩
      · simp only [Option.bind_eq_some_iff] at hparsed
        obtain ⟨version, hversion, hp⟩ := hparsed
        cases hp
        exact ⟨hnsPart, hnamePart, version_ne_of_takeVersion hversion⟩
    · cases hparsed
  · cases h

end PackageName

/-- The name of a package is read from its identity. -/
theorem Package.isPart_of_ofDocument {k : Nat} {value : Document} {p : Package}
    (h : Package.ofDocument k value = .ok p) :
    PackageName.IsPart p.name.ns ∧ PackageName.IsPart p.name.name ∧ p.name.version ≠ some "" := by
  simp only [Package.ofDocument, except_bind_eq_ok] at h
  obtain ⟨_, -, text, -, ⟨name, i⟩, hname, h⟩ := h
  have hparts := PackageName.isPart_of_parse hname
  split at h
  · simp only [misplaced, except_bind_eq_ok] at h
    obtain ⟨_, h, -⟩ := h
    cases h
  · simp only [except_bind_eq_ok, except_pure_eq_ok] at h
    obtain ⟨_, -, _, -, _, -, rfl⟩ := h
    exact hparts

/-- A fault that is reported otherwise is still a fault. -/
theorem mapError_eq_ok {ε ε' α : Type} {x : Except ε α} {f : ε → ε'} {a : α}
    (h : x.mapError f = .ok a) : x = .ok a := by
  cases x <;> simp_all [Except.mapError]

/-- **A graph that is read from a document is orderly.** -/
theorem Graph.orderly_of_ofDocument {document : Document} {g : Graph}
    (h : Graph.ofDocument document = .ok g) : g.Orderly := by
  unfold Graph.ofDocument at h
  split at h
  · have hobject := mapError_eq_ok h
    simp only [Graph.ofObject, except_bind_eq_ok, except_pure_eq_ok] at hobject
    obtain ⟨packages, hpackages, interfaces, -, types, htypes, worlds, hworlds, -, -, rfl⟩ :=
      hobject
    have hpackage : ∀ {id p}, Graph.package { packages, interfaces, types, worlds } id = .ok p →
        PackageName.IsPart p.name.ns ∧ PackageName.IsPart p.name.name ∧
          p.name.version ≠ some "" := by
      intro id p hp
      obtain ⟨hk, -⟩ := getElem?_of_entryAt (entryAt_of_elim_eq_ok hp)
      obtain ⟨value, hvalue⟩ := Document.exists_read_of_entries hpackages hk
      exact Package.isPart_of_ofDocument hvalue
    refine ⟨?_, ?_, fun hp => (hpackage hp).1, fun hp => (hpackage hp).2.1,
      fun hp => (hpackage hp).2.2⟩
    · intro id t ht
      obtain ⟨hk, hid⟩ := getElem?_of_entryAt (entryAt_of_elim_eq_ok ht)
      obtain ⟨value, hvalue⟩ := Document.exists_read_of_entries htypes hk
      rw [TypeDef.id_of_ofDocument hvalue, hid]
    · intro w hw
      obtain ⟨k, hk⟩ := List.mem_iff_getElem?.mp hw
      obtain ⟨value, hvalue⟩ := Document.exists_read_of_entries hworlds hk
      unfold Graph.world entryAt
      rw [World.id_of_ofDocument hvalue, if_pos (Int.natCast_nonneg k), Int.toNat_natCast, hk]
      rfl
  · cases h

end ComponentBindings
