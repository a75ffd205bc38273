/-!
# Pieces between marks

A text is cut at every mark, and the marks are left out. There is one piece
more than there are marks, so a text without marks is one piece and two
marks side by side have an empty piece between them.
-/

namespace ComponentBindings.Text

/-- The pieces of a text between its marks. -/
def pieces (isMark : Char → Bool) : List Char → List (List Char)
  | [] => [[]]
  | c :: rest =>
    if isMark c then [] :: pieces isMark rest
    else match pieces isMark rest with
      | piece :: more => (c :: piece) :: more
      | [] => [[c]]

/-- A text has at least one piece. -/
theorem pieces_ne_nil (isMark : Char → Bool) (cs : List Char) : pieces isMark cs ≠ [] := by
  cases cs with
  | nil => simp [pieces]
  | cons c rest =>
    unfold pieces
    split
    · simp
    · split <;> simp

/-- A text with a mark in it has the pieces before the mark and those after
it. -/
theorem pieces_append_cons {isMark : Char → Bool} {c : Char} (hc : isMark c = true)
    (xs ys : List Char) :
    pieces isMark (xs ++ c :: ys) = pieces isMark xs ++ pieces isMark ys := by
  induction xs with
  | nil => simp [pieces, hc]
  | cons x xs ih =>
    rw [List.cons_append, pieces, pieces, ih]
    by_cases hx : isMark x = true
    · rw [if_pos hx, if_pos hx, List.cons_append]
    · rw [if_neg hx, if_neg hx]
      obtain ⟨first, more, hpieces⟩ := List.exists_cons_of_ne_nil (pieces_ne_nil isMark xs)
      rw [hpieces]
      rfl

/-- A text without marks is one piece. -/
theorem pieces_of_forall {isMark : Char → Bool} {cs : List Char}
    (h : ∀ c ∈ cs, isMark c = false) : pieces isMark cs = [cs] := by
  induction cs with
  | nil => rfl
  | cons c cs ih =>
    have hc : ¬ isMark c = true := by simp [h c List.mem_cons_self]
    rw [pieces, if_neg hc, ih fun d hd => h d (List.mem_cons_of_mem _ hd)]

end ComponentBindings.Text
