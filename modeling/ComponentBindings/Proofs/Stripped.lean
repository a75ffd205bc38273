import ComponentBindings.Text.Blank
import Mathlib.Data.List.DropRight

/-!
# Texts without white space around them

White space is dropped from the ends of a text before it is read as an
identity or set into a comment. What is dropped is blank
(`exists_eq_append_strip`), and what is left has no white space at its ends
(`isTrim_strip`), so nothing more is dropped from it
(`IsTrim.strip_eq`).
-/

namespace ComponentBindings.Text

/-- A text with no white space at its ends. -/
structure IsTrim (cs : List Char) : Prop where
  /-- It does not start with white space. -/
  head : ∀ c ∈ cs.head?, isBlank c = false
  /-- It does not end with white space. -/
  last : ∀ c ∈ cs.getLast?, isBlank c = false

variable {cs : List Char}

/-- White space is dropped from the front, and then from the back. -/
theorem strip_eq_rdropWhile (cs : List Char) :
    strip cs = (cs.dropWhile isBlank).rdropWhile isBlank := rfl

/-- **White space is all that is dropped.** -/
theorem exists_eq_append_strip (cs : List Char) :
    ∃ before after, cs = before ++ strip cs ++ after ∧ (∀ c ∈ before, isBlank c = true) ∧
      ∀ c ∈ after, isBlank c = true := by
  refine ⟨cs.takeWhile isBlank, (cs.dropWhile isBlank).rtakeWhile isBlank, ?_,
    fun c hc => List.mem_takeWhile_imp hc, fun c hc => List.mem_rtakeWhile_imp hc⟩
  rw [strip_eq_rdropWhile, List.append_assoc, List.rdropWhile_append_rtakeWhile,
    List.takeWhile_append_dropWhile]

/-- A text without white space at its ends keeps all its characters. -/
theorem IsTrim.strip_eq (h : IsTrim cs) : strip cs = cs := by
  have hfront : cs.dropWhile isBlank = cs := by
    cases cs with
    | nil => rfl
    | cons c rest => exact List.dropWhile_cons_of_neg (by simp [h.head c rfl])
  rw [strip_eq_rdropWhile, hfront, List.rdropWhile_eq_self_iff]
  intro hne
  simp [h.last _ (List.getLast?_eq_some_getLast hne)]

/-- **What is left has no white space at its ends.** -/
theorem isTrim_strip (cs : List Char) : IsTrim (strip cs) where
  head := by
    intro c hc
    -- Dropping from the back leaves the first character in its place.
    obtain ⟨rest, hstrip⟩ := List.head?_eq_some_iff.mp hc
    obtain ⟨dropped, hfront⟩ := List.rdropWhile_prefix isBlank (cs.dropWhile isBlank)
    rw [← strip_eq_rdropWhile, hstrip, List.cons_append] at hfront
    have hnot := List.head?_dropWhile_not isBlank cs
    rwa [← hfront] at hnot
  last := by
    intro c hc
    obtain ⟨hne, rfl⟩ := List.mem_getLast?_eq_getLast hc
    exact eq_false_of_ne_true (List.rdropWhile_last_not isBlank _ hne)

/-- A text is dropped completely exactly if it is blank. -/
theorem strip_eq_nil_iff : strip cs = [] ↔ ∀ c ∈ cs, isBlank c = true := by
  constructor
  · intro h c hc
    obtain ⟨before, after, heq, hbefore, hafter⟩ := exists_eq_append_strip cs
    rw [heq, h, List.append_nil] at hc
    exact (List.mem_append.mp hc).elim (hbefore c) (hafter c)
  · intro h
    rw [strip_eq_rdropWhile, List.dropWhile_eq_nil_iff.mpr h]
    rfl

end ComponentBindings.Text
