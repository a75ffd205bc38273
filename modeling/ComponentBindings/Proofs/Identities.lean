import ComponentBindings.Proofs.Decoded
import ComponentBindings.Proofs.Stripped

/-!
# Identities are read back

An identity is a namespace and a name with a colon between them, then perhaps
an interface behind a slash, and perhaps a version behind an at sign
(`PackageName.spelling`). Its components are texts that are not empty. Marks
are kept out of all of them but the version, which is kept free of white
space instead; so a version may have marks in it, and the other components
may have white space (`PackageName.AreComponents`).

Reading goes from left to right, and a component ends at the first mark, so
there is one way to read a text (`PackageName.parse?_eq_some_iff`). Hence what
is read is what was written, and what is written is read again
(`PackageName.identity_roundTrip`).
-/

namespace ComponentBindings

namespace PackageName

/-! ## Components -/

/-- A version: a text that is not empty and has no white space in it. -/
structure IsVersion (text : String) : Prop where
  /-- It is not empty. -/
  ne_empty : text ≠ ""
  /-- It has no white space in it. -/
  notBlank : ∀ c ∈ text.toList, Text.isBlank c = false

/-- **The components of an identity.** -/
structure AreComponents (p : PackageName) (interface : Option String) : Prop where
  /-- The namespace is a part that is not empty. -/
  ns : IsPart p.ns ∧ p.ns ≠ ""
  /-- The name is a part that is not empty. -/
  name : IsPart p.name ∧ p.name ≠ ""
  /-- The interface, if there is one, is a part that is not empty. -/
  interface : ∀ i ∈ interface, IsPart i ∧ i ≠ ""
  /-- The version, if there is one, is one. -/
  version : ∀ v ∈ p.version, IsVersion v

/-- A component behind its mark, or nothing. -/
def behind (mark : Char) (component : Option String) : String :=
  component.elim "" (String.singleton mark ++ ·)

/-- **How components are written as an identity.** -/
def spelling (p : PackageName) (interface : Option String) : String :=
  p.ns ++ ":" ++ p.name ++ behind '/' interface ++ behind '@' p.version

variable {p : PackageName} {interface version : Option String} {cs rest : List Char}
  {part : String} {mark : Char}

/-- An identity is written as its components are, since none is empty. -/
theorem AreComponents.identity_eq (h : p.AreComponents interface) :
    p.identity interface = p.spelling interface := by
  unfold identity spelling behind
  cases interface with
  | none =>
    cases hversion : p.version with
    | none => simp
    | some v => simp [(h.version v hversion).ne_empty]
  | some i =>
    cases hversion : p.version with
    | none => simp [(h.interface i rfl).2]
    | some v => simp [(h.interface i rfl).2, (h.version v hversion).ne_empty]

@[simp]
theorem toList_behind_none : (behind mark none).toList = [] := rfl

@[simp]
theorem toList_behind_some : (behind mark (some part)).toList = mark :: part.toList := by
  simp [behind]

/-- The characters of an identity. -/
theorem toList_spelling :
    (p.spelling interface).toList =
      p.ns.toList ++ ':' ::
        (p.name.toList ++ ((behind '/' interface).toList ++ (behind '@' p.version).toList)) := by
  simp only [spelling, String.toList_append, List.append_assoc]
  rfl

/-- A component behind a mark starts with the mark. -/
theorem isMark_of_mem_head?_behind (hmark : isMark mark = true) (component : Option String) :
    ∀ c ∈ (behind mark component).toList.head?, isMark c = true := by
  intro c hc
  cases component with
  | none => simp at hc
  | some text =>
    obtain rfl : mark = c := by simpa using hc
    exact hmark

/-! ## Reading -/

/-- **A part is taken up to the next mark.** -/
theorem takePart_eq_some_iff :
    takePart cs = some (part, rest) ↔ (IsPart part ∧ part ≠ "") ∧ cs = part.toList ++ rest ∧
      ∀ c ∈ rest.head?, isMark c = true := by
  constructor
  · intro h
    have hpart := isPart_of_takePart h
    unfold takePart at h
    split at h
    · cases h
    · next hne =>
      cases h
      refine ⟨⟨hpart, by simpa using hne⟩, ?_, fun c hc => ?_⟩
      · rw [String.toList_ofList, List.takeWhile_append_dropWhile]
      · have hnot := List.head?_dropWhile_not (fun c => !isMark c) cs
        rw [hc] at hnot
        simpa using hnot
  · rintro ⟨⟨hpart, hne⟩, rfl, hhead⟩
    have hall : ∀ c ∈ part.toList, (!isMark c) = true := fun c hc => by simp [hpart c hc]
    have htake : (part.toList ++ rest).takeWhile (fun c => !isMark c) = part.toList := by
      rw [List.takeWhile_append_of_pos hall]
      cases rest with
      | nil => simp
      | cons c rest => simp [hhead c rfl]
    have hdrop : (part.toList ++ rest).dropWhile (fun c => !isMark c) = rest := by
      rw [List.dropWhile_append_of_pos hall]
      cases rest with
      | nil => rfl
      | cons c rest => simp [hhead c rfl]
    unfold takePart
    rw [htake, hdrop]
    split
    · next hnil => exact absurd (by simpa using hnil) hne
    · rw [String.ofList_toList]

/-- A part is taken from in front of what does not go on with it. -/
theorem takePart_append (hpart : IsPart part ∧ part ≠ "")
    (hrest : ∀ c ∈ rest.head?, isMark c = true) :
    takePart (part.toList ++ rest) = some (part, rest) :=
  takePart_eq_some_iff.mpr ⟨hpart, rfl, hrest⟩

/-- A part is taken from in front of a mark. -/
theorem takePart_append_mark {mark : Char} (hpart : IsPart part ∧ part ≠ "")
    (hmark : isMark mark = true) :
    takePart (part.toList ++ mark :: rest) = some (part, mark :: rest) :=
  takePart_append hpart fun c hc => by
    obtain rfl : mark = c := by simpa using hc
    exact hmark

/-- **A version is all that is left**, behind its mark. -/
theorem takeVersion_eq_some_iff :
    takeVersion cs = some version ↔
      (∀ v ∈ version, IsVersion v) ∧ cs = (behind '@' version).toList := by
  constructor
  · intro h
    unfold takeVersion at h
    split at h
    · cases h
      exact ⟨by simp, rfl⟩
    · split at h
      · cases h
      · next hrefused =>
        cases h
        rw [Bool.or_eq_true, not_or, List.isEmpty_iff] at hrefused
        refine ⟨?_, by simp⟩
        rintro v ⟨⟩
        exact ⟨by simpa using hrefused.1, by simpa using hrefused.2⟩
    · cases h
  · rintro ⟨hversion, rfl⟩
    cases version with
    | none => rfl
    | some v =>
      obtain ⟨hne, hblank⟩ := hversion v rfl
      have haccepted : ¬ (v.toList.isEmpty || v.toList.any Text.isBlank) = true := by
        simp only [Bool.or_eq_true, List.isEmpty_iff, List.any_eq_true, not_or, not_exists, not_and]
        exact ⟨by simpa using hne, fun c hc => by simp [hblank c hc]⟩
      rw [toList_behind_some]
      show (if _ then none else some (some (String.ofList v.toList))) = _
      rw [if_neg haccepted, String.ofList_toList]

/-- **A text is read as the components that it is written with**, and there is
no other way to read it. -/
theorem parse?_eq_some_iff :
    parse? cs = some (p, interface) ↔
      p.AreComponents interface ∧ cs = (p.spelling interface).toList := by
  rw [toList_spelling]
  constructor
  · intro h
    simp only [parse?, Option.bind_eq_bind, Option.bind_eq_some_iff] at h
    obtain ⟨⟨ns, afterNs⟩, hns, h⟩ := h
    obtain ⟨hnsPart, rfl, -⟩ := takePart_eq_some_iff.mp hns
    dsimp only at h
    split at h
    · simp only [Option.bind_eq_some_iff] at h
      obtain ⟨⟨name, afterName⟩, hname, h⟩ := h
      obtain ⟨hnamePart, rfl, -⟩ := takePart_eq_some_iff.mp hname
      dsimp only at h
      split at h
      · simp only [Option.bind_eq_some_iff] at h
        obtain ⟨⟨i, afterInterface⟩, hi, version, hversion, hp⟩ := h
        obtain ⟨hiPart, rfl, -⟩ := takePart_eq_some_iff.mp hi
        obtain ⟨hv, rfl⟩ := takeVersion_eq_some_iff.mp hversion
        cases hp
        exact ⟨⟨hnsPart, hnamePart, fun _ hother => by cases hother; exact hiPart, hv⟩, by simp⟩
      · simp only [Option.bind_eq_some_iff] at h
        obtain ⟨version, hversion, hp⟩ := h
        obtain ⟨hv, rfl⟩ := takeVersion_eq_some_iff.mp hversion
        cases hp
        exact ⟨⟨hnsPart, hnamePart, by simp, hv⟩, rfl⟩
    · cases h
  · rintro ⟨⟨hns, hname, hinterface, hversion⟩, rfl⟩
    obtain ⟨ns, name, version⟩ := p
    dsimp only at hns hname hversion ⊢
    have hread := takeVersion_eq_some_iff.mpr ⟨hversion, rfl⟩
    have hmark : isMark '/' = true ∧ isMark '@' = true := ⟨rfl, rfl⟩
    unfold parse?
    rw [takePart_append_mark hns rfl]
    cases interface with
    | none =>
      have htaken := takePart_append hname (isMark_of_mem_head?_behind hmark.2 version)
      cases version <;> simp_all
    | some i =>
      have htaken := takePart_append (hinterface i rfl) (isMark_of_mem_head?_behind hmark.2 version)
      simp [takePart_append_mark hname hmark.1, htaken, hread]

/-- **What a text is read as**: the components that the text is written with,
white space around it aside. -/
theorem parse_eq_ok_iff {text : String} :
    parse text = .ok (p, interface) ↔
      p.AreComponents interface ∧ Text.stripped text = p.spelling interface := by
  have hread : parse text = .ok (p, interface) ↔
      parse? (Text.strip text.toList) = some (p, interface) := by
    unfold parse
    split <;> simp_all
  rw [hread, parse?_eq_some_iff, Text.stripped, ← String.toList_inj, String.toList_ofList]

/-- **Identities are read back.** A text is read exactly if it is the spelling
of components once the white space around it is dropped. The identity of what
is read is that spelling, and it is read as the same again; and what is
written for components is read as these components, if it has no white space
at its ends. -/
theorem identity_roundTrip :
    (∀ text, (∃ found, parse text = .ok found) ↔
      ∃ p interface, AreComponents p interface ∧
        Text.stripped text = p.ns ++ ":" ++ p.name ++ behind '/' interface ++
          behind '@' p.version) ∧
    (∀ text p interface, parse text = .ok (p, interface) →
      p.identity interface = Text.stripped text ∧
      parse (p.identity interface) = .ok (p, interface)) ∧
    ∀ p interface, AreComponents p interface → Text.IsTrim (p.identity interface).toList →
      parse (p.identity interface) = .ok (p, interface) := by
  have hwritten : ∀ {p : PackageName} {interface}, p.AreComponents interface →
      Text.IsTrim (p.identity interface).toList →
      parse (p.identity interface) = .ok (p, interface) := by
    intro p interface h htrim
    refine parse_eq_ok_iff.mpr ⟨h, ?_⟩
    rw [Text.stripped, htrim.strip_eq, String.ofList_toList, h.identity_eq]
  refine ⟨fun text => ⟨?_, ?_⟩, fun text p interface h => ?_, fun p interface => hwritten⟩
  · rintro ⟨⟨p, interface⟩, h⟩
    exact ⟨p, interface, parse_eq_ok_iff.mp h⟩
  · rintro ⟨p, interface, h⟩
    exact ⟨(p, interface), parse_eq_ok_iff.mpr h⟩
  · obtain ⟨hparts, htext⟩ := parse_eq_ok_iff.mp h
    have hidentity : p.identity interface = Text.stripped text :=
      hparts.identity_eq.trans htext.symm
    have htrim := Text.isTrim_strip text.toList
    rw [← String.toList_ofList (l := Text.strip _), ← Text.stripped, ← hidentity] at htrim
    exact ⟨hidentity, hwritten hparts htrim⟩

/-- White space stays inside of names, and marks stay in a version. -/
theorem identity_roundTrip_marks :
    let p : PackageName := ⟨"a b", "c d", some "1:/@2"⟩
    parse "\n a b:c d/e@1:/@2 \t" = .ok (p, some "e") ∧
      p.identity (some "e") = "a b:c d/e@1:/@2" ∧
      p.AreComponents (some "e") ∧
      parse (p.identity (some "e")) = .ok (p, some "e") ∧
      ¬ ∃ found, parse "a:b@1 2" = .ok found := by
  obtain ⟨-, hread, hwritten⟩ := identity_roundTrip
  have hparse : parse "\n a b:c d/e@1:/@2 \t" = .ok (⟨"a b", "c d", some "1:/@2"⟩, some "e") := rfl
  have hparts : AreComponents ⟨"a b", "c d", some "1:/@2"⟩ (some "e") :=
    (parse_eq_ok_iff.mp hparse).1
  have htrim : Text.IsTrim (identity ⟨"a b", "c d", some "1:/@2"⟩ (some "e")).toList := by
    constructor
    · intro c hc
      obtain rfl : 'a' = c := Option.some.inj hc
      rfl
    · intro c hc
      obtain rfl : '2' = c := Option.some.inj hc
      rfl
  refine ⟨hparse, (hread _ _ _ hparse).1, hparts, hwritten _ _ hparts htrim, ?_⟩
  rintro ⟨found, hfound⟩
  cases hfound

end PackageName

end ComponentBindings
