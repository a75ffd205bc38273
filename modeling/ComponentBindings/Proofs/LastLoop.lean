import ComponentBindings.Generate
import ComponentBindings.Proofs.Emission

/-!
# The last loop, round by round

When the items of a world have been walked, the interfaces that have been noted
are generated one by one. A round takes the first of those that wait and can
still be taken (`Assignment.generatePending_of_some`), and the loop is over when
there is none (`Assignment.generatePending_of_none`). What can still be taken
gets less with every round, which makes for an induction
(`Assignment.generatePending_induction`).
-/

namespace ComponentBindings

namespace Assignment

variable {a : Assignment} {untaken rest : List Int} {s s' : Session} {j : Int}

/-- The loop is over when nothing that waits can be taken. -/
theorem generatePending_of_none (hfind : s.pending.find? (· ∈ untaken) = none) :
    a.generatePending untaken s = .ok () s := by
  rw [generatePending]
  refine bind_eq_ok.mpr ⟨s, s, get_eq_ok.mpr ⟨rfl, rfl⟩, ?_⟩
  rw [hfind]
  rfl

/-- The first that can be taken is taken. -/
theorem generatePending_of_some (hfind : s.pending.find? (· ∈ untaken) = some j) :
    a.generatePending untaken s
      = (a.generateInterface j none .imported true >>= fun _ =>
          a.generatePending (untaken.erase j)) { s with pending := s.pending.erase j } := by
  have hj : j ∈ untaken := by simpa using List.find?_some hfind
  have hget : (get : Emission Session) s = .ok s s := rfl
  rw [generatePending]
  simp only [bind, EStateM.bind, hget, hfind, hj, dite_true]
  rfl

/-- The loop does nothing when no interface waits. -/
theorem generatePending_of_nil (hpending : s.pending = []) :
    a.generatePending untaken s = .ok () s :=
  generatePending_of_none (by rw [hpending]; rfl)

/-- The interface that has waited longest is taken if it can be. -/
theorem generatePending_of_cons (hpending : s.pending = j :: rest) (hj : j ∈ untaken) :
    a.generatePending untaken s
      = (a.generateInterface j none .imported true >>= fun _ =>
          a.generatePending (untaken.erase j)) { s with pending := rest } := by
  have hfind : s.pending.find? (· ∈ untaken) = some j := by simp [hpending, hj]
  have herase : s.pending.erase j = rest := by simp [hpending]
  rw [generatePending_of_some hfind, herase]

/-- A round that succeeds goes on with what can still be taken. -/
theorem generatePending_of_round (hpending : s.pending = j :: rest) (hj : j ∈ untaken)
    (hround : a.generateInterface j none .imported true { s with pending := rest } = .ok () s') :
    a.generatePending untaken s = a.generatePending (untaken.erase j) s' := by
  rw [generatePending_of_cons hpending hj]
  simp only [bind, EStateM.bind, hround]

/-- **Induction on the rounds**: whatever session a round ends in, one interface
less can be taken from there. -/
@[elab_as_elim]
theorem generatePending_induction {motive : List Int → Session → Prop}
    (finished : ∀ {untaken s}, s.pending.find? (· ∈ untaken) = none → motive untaken s)
    (round : ∀ {untaken s j}, s.pending.find? (· ∈ untaken) = some j → j ∈ untaken →
      j ∈ s.pending → (∀ s', motive (untaken.erase j) s') → motive untaken s)
    (untaken : List Int) (s : Session) : motive untaken s := by
  induction hlength : untaken.length using Nat.strong_induction_on generalizing untaken s with
  | h n ih =>
    cases hfind : s.pending.find? (· ∈ untaken) with
    | none => exact finished hfind
    | some j =>
      have hj : j ∈ untaken := by simpa using List.find?_some hfind
      refine round hfind hj (List.mem_of_find?_eq_some hfind) fun s' => ih _ ?_ _ s' rfl
      have := List.length_erase_of_mem hj
      have := List.length_pos_of_mem hj
      omega

end Assignment

end ComponentBindings
