import ComponentBindings.TypeExpr.Shape
import ComponentBindings.TypeExpr.Spelling
import Mathlib.Tactic.Common

/-!
# Spelling a shape

Once it is settled how each named type is referred to, the text of a shape
follows from the shape alone. `Shape.spell` is that text, and it is what a
renderer with its tables is measured against. The names may fail to come –
an owner may have no module, and a table may not hold a name yet – so they
come from a monad, and the spelling is in it, too: `Except Fault` where a
missing name is a fault, and `Option` where it is just missing
(`Wording`).

Two observations carry the rest. A spelling looks only at the names that
occur in the shape (`Shape.spell_congr`), so a shape without names is
spelled alike everywhere; and it needs all of them
(`Shape.isSome_of_spell`), so whoever has spelled a shape has referred to
every type in it.
-/

namespace ComponentBindings

/-- How named types are referred to, as far as that is known. -/
abbrev Wording := Int → Option String

/-- A wording that says what another one says, and maybe more. -/
def Wording.Extends (more less : Wording) : Prop :=
  ∀ id text, less id = some text → more id = some text

theorem Wording.Extends.refl (w : Wording) : w.Extends w := fun _ _ h => h

theorem Wording.Extends.trans {u v w : Wording} (h : w.Extends v) (h' : v.Extends u) :
    w.Extends u :=
  fun id text hu => h id text (h' id text hu)

namespace Shape

variable {m : Type → Type} [Monad m]

mutual

/-- **The text of a shape** in which named types are referred to in a given
way. A handle is written as its resource. -/
def spell (name : Int → m String) : Shape → m String
  | .unit => pure unitSpelling
  | .primitive p => pure p.spelling
  | .named id => name id
  | .handle resource => name resource
  | .list element => do return listSpelling (← spell name element)
  | .option element => do return optionSpelling (← spell name element)
  | .aliasOf target => spell name target
  | .result ok err => do
    let ok ← spell name ok
    let err ← spell name err
    return resultSpelling ok err
  | .tuple items => do return tupleSpelling (← spellItems name items)

/-- The texts of several shapes. -/
def spellItems (name : Int → m String) : List Shape → m (List String)
  | [] => pure []
  | shape :: rest => do
    let text ← spell name shape
    let texts ← spellItems name rest
    return text :: texts

end

mutual

/-- The types that a shape refers to by name. -/
def names : Shape → List Int
  | .unit | .primitive _ => []
  | .named id => [id]
  | .handle resource => [resource]
  | .list s | .option s | .aliasOf s => s.names
  | .result s t => s.names ++ t.names
  | .tuple ss => namesOfItems ss

/-- The types that several shapes refer to by name. -/
def namesOfItems : List Shape → List Int
  | [] => []
  | s :: ss => s.names ++ namesOfItems ss

end

/-- What several shapes refer to is referred to by one of them. -/
theorem mem_namesOfItems {ss : List Shape} {id : Int} :
    id ∈ namesOfItems ss ↔ ∃ s ∈ ss, id ∈ s.names := by
  induction ss with
  | nil => simp [namesOfItems]
  | cons s ss ih => simp [namesOfItems, ih]

mutual

/-- A shape depends on the module it is written in exactly when it refers to
something by name. -/
theorem isScoped_iff : (s : Shape) → (s.isScoped = true ↔ s.names ≠ [])
  | .unit | .primitive _ => by simp [isScoped, names]
  | .named _ | .handle _ => by simp [isScoped, names]
  | .list s | .option s | .aliasOf s => by simpa [isScoped, names] using isScoped_iff s
  | .result s t => by
    have hs := isScoped_iff s
    have ht := isScoped_iff t
    simp only [isScoped, names, Bool.or_eq_true, hs, ht, ne_eq, List.append_eq_nil_iff]
    tauto
  | .tuple ss => by simpa [isScoped, names] using anyScoped_iff ss

theorem anyScoped_iff : (ss : List Shape) → (anyScoped ss = true ↔ namesOfItems ss ≠ [])
  | [] => by simp [anyScoped, namesOfItems]
  | s :: ss => by
    have hs := isScoped_iff s
    have hss := anyScoped_iff ss
    simp only [anyScoped, namesOfItems, Bool.or_eq_true, hs, hss, ne_eq, List.append_eq_nil_iff]
    tauto

end

mutual

/-- **A spelling looks only at the names in the shape.** -/
theorem spell_congr {f g : Int → m String} :
    (s : Shape) → (∀ id ∈ s.names, f id = g id) → spell f s = spell g s
  | .unit, _ | .primitive _, _ => rfl
  | .named id, h => h id (by simp [names])
  | .handle id, h => h id (by simp [names])
  | .list s, h => by rw [spell, spell, spell_congr s h]
  | .option s, h => by rw [spell, spell, spell_congr s h]
  | .aliasOf s, h => by rw [spell, spell, spell_congr s h]
  | .result s t, h => by
    rw [spell, spell, spell_congr s (fun id hid => h id (List.mem_append_left _ hid)),
      spell_congr t (fun id hid => h id (List.mem_append_right _ hid))]
  | .tuple ss, h => by rw [spell, spell, spellItems_congr ss h]

theorem spellItems_congr {f g : Int → m String} :
    (ss : List Shape) → (∀ id ∈ namesOfItems ss, f id = g id) →
      spellItems f ss = spellItems g ss
  | [], _ => rfl
  | s :: ss, h => by
    rw [spellItems, spellItems, spell_congr s (fun id hid => h id (List.mem_append_left _ hid)),
      spellItems_congr ss (fun id hid => h id (List.mem_append_right _ hid))]

end

/-- A shape without names is spelled alike everywhere. -/
theorem spell_of_not_isScoped {s : Shape} (h : s.isScoped = false) (f g : Int → m String) :
    spell f s = spell g s := by
  have hnames : s.names = [] := by
    by_contra hne
    simp [(isScoped_iff s).mpr hne] at h
  refine spell_congr s (fun id hid => ?_)
  rw [hnames] at hid
  exact absurd hid (List.not_mem_nil)

/-! ## Spelling with the names that are known -/

mutual

/-- **A spelling needs all the names in the shape.** -/
theorem isSome_of_spell {w : Wording} :
    (s : Shape) → ∀ {text}, spell w s = some text → ∀ id ∈ s.names, (w id).isSome
  | .unit, _, _, _, hid | .primitive _, _, _, _, hid => absurd hid (by simp [names])
  | .named id, text, h, id', hid => by
    obtain rfl : id' = id := by simpa [names] using hid
    exact Option.isSome_of_eq_some h
  | .handle id, text, h, id', hid => by
    obtain rfl : id' = id := by simpa [names] using hid
    exact Option.isSome_of_eq_some h
  | .list s, text, h, id, hid => by
    obtain ⟨t, ht, -⟩ := Option.bind_eq_some_iff.mp h
    exact isSome_of_spell s ht id hid
  | .option s, text, h, id, hid => by
    obtain ⟨t, ht, -⟩ := Option.bind_eq_some_iff.mp h
    exact isSome_of_spell s ht id hid
  | .aliasOf s, text, h, id, hid => isSome_of_spell s h id hid
  | .result s t, text, h, id, hid => by
    obtain ⟨ok, hok, h⟩ := Option.bind_eq_some_iff.mp h
    obtain ⟨err, herr, -⟩ := Option.bind_eq_some_iff.mp h
    rcases List.mem_append.mp hid with hid | hid
    · exact isSome_of_spell s hok id hid
    · exact isSome_of_spell t herr id hid
  | .tuple ss, text, h, id, hid => by
    obtain ⟨ts, hts, -⟩ := Option.bind_eq_some_iff.mp h
    exact isSome_of_spellItems ss hts id hid

theorem isSome_of_spellItems {w : Wording} :
    (ss : List Shape) → ∀ {texts}, spellItems w ss = some texts →
      ∀ id ∈ namesOfItems ss, (w id).isSome
  | [], _, _, _, hid => absurd hid (by simp [namesOfItems])
  | s :: ss, texts, h, id, hid => by
    obtain ⟨t, ht, h⟩ := Option.bind_eq_some_iff.mp h
    obtain ⟨ts, hts, -⟩ := Option.bind_eq_some_iff.mp h
    rcases List.mem_append.mp hid with hid | hid
    · exact isSome_of_spell s ht id hid
    · exact isSome_of_spellItems ss hts id hid

end

mutual

/-- **A spelling needs nothing but the names in the shape.** -/
theorem isSome_spell {w : Wording} :
    (s : Shape) → (∀ id ∈ s.names, (w id).isSome) → (spell w s).isSome
  | .unit, _ | .primitive _, _ => rfl
  | .named id, h => h id (by simp [names])
  | .handle id, h => h id (by simp [names])
  | .list s, h => by
    obtain ⟨text, htext⟩ := Option.isSome_iff_exists.mp (isSome_spell s h)
    rw [spell, htext]
    rfl
  | .option s, h => by
    obtain ⟨text, htext⟩ := Option.isSome_iff_exists.mp (isSome_spell s h)
    rw [spell, htext]
    rfl
  | .aliasOf s, h => by
    rw [spell]
    exact isSome_spell s h
  | .result s t, h => by
    obtain ⟨ok, hok⟩ := Option.isSome_iff_exists.mp
      (isSome_spell s fun id hid => h id (List.mem_append_left _ hid))
    obtain ⟨err, herr⟩ := Option.isSome_iff_exists.mp
      (isSome_spell t fun id hid => h id (List.mem_append_right _ hid))
    rw [spell, hok, herr]
    rfl
  | .tuple ss, h => by
    obtain ⟨texts, htexts⟩ := Option.isSome_iff_exists.mp (isSome_spellItems ss h)
    rw [spell, htexts]
    rfl

theorem isSome_spellItems {w : Wording} :
    (ss : List Shape) → (∀ id ∈ namesOfItems ss, (w id).isSome) → (spellItems w ss).isSome
  | [], _ => rfl
  | s :: ss, h => by
    obtain ⟨text, htext⟩ := Option.isSome_iff_exists.mp
      (isSome_spell s fun id hid => h id (List.mem_append_left _ hid))
    obtain ⟨texts, htexts⟩ := Option.isSome_iff_exists.mp
      (isSome_spellItems ss fun id hid => h id (List.mem_append_right _ hid))
    rw [spellItems, htext, htexts]
    rfl

end

/-- **More names do not change a spelling.** -/
theorem spell_mono {w w' : Wording} {s : Shape} {text : String} (hw : w'.Extends w)
    (h : spell w s = some text) : spell w' s = some text := by
  rw [← h]
  refine spell_congr s (fun id hid => ?_)
  obtain ⟨t, ht⟩ := Option.isSome_iff_exists.mp (isSome_of_spell s h id hid)
  rw [ht, hw id t ht]

/-! ## Spelling with names that may be faults -/

mutual

/-- A spelling that finds all names is the one in which a missing name is a
fault. -/
theorem spell_toOption {ε : Type} (f : Int → Except ε String) :
    (s : Shape) → spell (fun id => (f id).toOption) s = (spell f s).toOption
  | .unit | .primitive _ | .named _ | .handle _ => rfl
  | .list s => by
    rw [spell, spell, spell_toOption f s]
    cases spell f s <;> rfl
  | .option s => by
    rw [spell, spell, spell_toOption f s]
    cases spell f s <;> rfl
  | .aliasOf s => by rw [spell, spell, spell_toOption f s]
  | .result s t => by
    rw [spell, spell, spell_toOption f s, spell_toOption f t]
    cases spell f s
    · rfl
    · cases spell f t <;> rfl
  | .tuple ss => by
    rw [spell, spell, spellItems_toOption f ss]
    cases spellItems f ss <;> rfl

theorem spellItems_toOption {ε : Type} (f : Int → Except ε String) :
    (ss : List Shape) → spellItems (fun id => (f id).toOption) ss = (spellItems f ss).toOption
  | [] => rfl
  | s :: ss => by
    rw [spellItems, spellItems, spell_toOption f s, spellItems_toOption f ss]
    cases spell f s
    · rfl
    · cases spellItems f ss <;> rfl

end

end Shape

end ComponentBindings
