import ComponentBindings.Options

/-!
# Segments of a base package

A segment of a base package is checked to be an identifier of letters, digits
and underscores, and one line feed behind it is let pass
(`Options.isBaseSegment_iff`).
-/

namespace ComponentBindings

/-- What starts a segment can stand inside of one. -/
theorem isSegmentPart_of_isSegmentStart {c : Char} (h : isSegmentStart c = true) :
    isSegmentPart c = true := by
  simp only [isSegmentStart, isSegmentPart, Char.isAlphanum, Bool.or_eq_true] at h ⊢
  exact h.imp_left .inl

namespace Options

/-- **An identifier of ASCII**: a letter or an underscore, and then letters,
digits and underscores. -/
def IsSegment (text : String) : Prop :=
  ∃ first rest, text.toList = first :: rest ∧ isSegmentStart first = true ∧
    ∀ c ∈ rest, isSegmentPart c = true

/-- **What passes as a segment**: an identifier, or one with a line feed behind
it. -/
def PassesAsSegment (text : String) : Prop :=
  IsSegment text ∨ ∃ identifier, IsSegment identifier ∧ text = identifier ++ "\n"

variable {text : String}

/-- The characters of an identifier. -/
theorem IsSegment.isSegmentPart (h : IsSegment text) :
    ∀ c ∈ text.toList, isSegmentPart c = true := by
  obtain ⟨first, rest, htext, hfirst, hrest⟩ := h
  rw [htext]
  exact List.forall_mem_cons.mpr ⟨isSegmentPart_of_isSegmentStart hfirst, hrest⟩

namespace PassesAsSegment

/-- What passes as a segment starts as one. -/
theorem exists_eq_cons (h : PassesAsSegment text) :
    ∃ first rest, text.toList = first :: rest ∧ isSegmentStart first = true := by
  rcases h with ⟨first, rest, htext, hfirst, -⟩ | ⟨identifier, ⟨first, rest, htext, hfirst, -⟩, rfl⟩
  · exact ⟨first, rest, htext, hfirst⟩
  · exact ⟨first, rest ++ ['\n'], by rw [String.toList_append, htext]; rfl, hfirst⟩

/-- The characters of what passes as a segment. -/
theorem isSegmentPart_or (h : PassesAsSegment text) {c : Char} (hc : c ∈ text.toList) :
    isSegmentPart c = true ∨ c = '\n' := by
  rcases h with h | ⟨identifier, h, rfl⟩
  · exact .inl (h.isSegmentPart c hc)
  · rw [String.toList_append] at hc
    exact (List.mem_append.mp hc).imp (h.isSegmentPart c) List.mem_singleton.mp

/-- What passes as a segment is an identifier exactly if there is no line feed
in it. -/
theorem isSegment_iff (h : PassesAsSegment text) : IsSegment text ↔ '\n' ∉ text.toList := by
  have hnot : ∀ {text}, IsSegment text → '\n' ∉ text.toList := fun h hmem =>
    absurd (h.isSegmentPart _ hmem) (by decide)
  rcases h with h | ⟨identifier, -, rfl⟩
  · exact iff_of_true h (hnot h)
  · have hmem : '\n' ∈ (identifier ++ "\n").toList := by simp
    exact iff_of_false (fun h => hnot h hmem) (not_not_intro hmem)

end PassesAsSegment

/-- **The check of a segment** passes identifiers, and those with a line feed
behind them. -/
theorem isBaseSegment_iff {cs : List Char} :
    isBaseSegment cs = true ↔ PassesAsSegment (String.ofList cs) := by
  have hcheck : ∀ first rest, isBaseSegment (first :: rest) = true ↔
      isSegmentStart first = true ∧ ∀ c ∈ if rest.getLast? = some '\n' then rest.dropLast else rest,
        isSegmentPart c = true := by
    intro first rest
    rw [isBaseSegment, Bool.and_eq_true, List.all_eq_true]
  constructor
  · intro h
    obtain _ | ⟨first, rest⟩ := cs
    · cases h
    obtain ⟨hfirst, hrest⟩ := (hcheck first rest).mp h
    split at hrest
    · next hend =>
      obtain ⟨front, rfl⟩ := List.getLast?_eq_some_iff.mp hend
      rw [List.dropLast_concat] at hrest
      refine .inr ⟨String.ofList (first :: front), ⟨first, front, by simp, hfirst, hrest⟩, ?_⟩
      rw [← List.cons_append, String.ofList_append]
    · exact .inl ⟨first, rest, String.toList_ofList, hfirst, hrest⟩
  · rintro (h | ⟨identifier, ⟨first, front, htext, hfirst, hfront⟩, heq⟩)
    · obtain ⟨first, rest, htext, hfirst, hrest⟩ := h
      rw [String.toList_ofList] at htext
      subst htext
      refine (hcheck first rest).mpr ⟨hfirst, ?_⟩
      rw [if_neg fun hend => ?_]
      · exact hrest
      · cases hrest '\n' (List.mem_of_getLast? hend)
    · have hcs : cs = first :: (front ++ ['\n']) := by
        rw [← String.toList_ofList (l := cs), heq, String.toList_append, htext]
        rfl
      subst hcs
      refine (hcheck first _).mpr ⟨hfirst, ?_⟩
      rw [if_pos List.getLast?_concat, List.dropLast_concat]
      exact hfront

/-- **The segments of a base package pass.** -/
theorem passesAsSegment_of_mem {o : Options} {segment : String} (h : segment ∈ o.baseSegments) :
    PassesAsSegment segment := by
  obtain ⟨cs, hcs, rfl⟩ := List.mem_map.mp h
  exact isBaseSegment_iff.mp (List.all_eq_true.mp o.isBasePackage_basePackage cs hcs)

end Options

end ComponentBindings
