import ComponentBindings.Proofs.Decoded

/-!
# Readings that agree

Two documents can be different and stand for the same graph, and two documents that stand for no
graph can be refused alike. `SameOutcome` says both: the readings have one value, or they fail with
errors of one class. The wording of the errors may differ, since a message shows the value that it
complains about.

Of parts of a document more has to be said, and less: their readings have values that are related
in some way, and the class that counts is the one of the error as it will be reported
(`Fault.reported`), because a fault in a part does not yet know whether it can be worded. That is
the judgement `Agree`, which has a rule for each way in which readings are put together.
-/

namespace ComponentBindings

/-- The classes of errors that a reading can end with. -/
inductive ErrorClass where
  /-- An error that is diagnosed as one of a kind. -/
  | diagnosed (kind : Diagnostic.Kind)
  /-- A value of the wrong type is walked as a list. -/
  | type
  /-- A value is out of the range of what can be done with it. -/
  | value
  deriving DecidableEq

/-- **The class of the error that a reading ends with.** -/
def Fault.errorClass : Fault → ErrorClass
  | .notEnumerable => .type
  | .unrepresentable _ => .value
  | other => .diagnosed other.diagnostic.kind

section Agree

variable {α β γ δ : Type}

/-- **Readings with one outcome**: they have the same value, or they fail with errors of one
class. -/
def SameOutcome (x y : Except Fault α) : Prop :=
  (∃ a, x = .ok a ∧ y = .ok a) ∨
    ∃ e f : Fault, x = .error e ∧ y = .error f ∧ e.errorClass = f.errorClass

/-- Having one outcome is an equivalence. -/
theorem sameOutcome_equivalence : Equivalence (SameOutcome (α := α)) where
  refl x := by
    cases x with
    | ok a => exact .inl ⟨a, rfl, rfl⟩
    | error e => exact .inr ⟨e, e, rfl, rfl, rfl⟩
  symm := by
    rintro x y (⟨a, hx, hy⟩ | ⟨e, f, hx, hy, h⟩)
    · exact .inl ⟨a, hy, hx⟩
    · exact .inr ⟨f, e, hy, hx, h.symm⟩
  trans := by
    rintro x y z (⟨a, rfl, rfl⟩ | ⟨e, f, rfl, rfl, h⟩) (⟨b, hb, rfl⟩ | ⟨f', k, hf, rfl, h'⟩)
    · cases hb
      exact .inl ⟨a, rfl, rfl⟩
    · cases hf
    · cases hb
    · cases hf
      exact .inr ⟨e, k, rfl, rfl, h.trans h'⟩

/-- **Readings agree**: they have values that are related, or they fail with what will be reported
as errors of one class. -/
inductive Agree (R : α → β → Prop) : Except Fault α → Except Fault β → Prop where
  /-- The values are related. -/
  | ok {a : α} {b : β} (h : R a b) : Agree R (.ok a) (.ok b)
  /-- The errors are of one class. -/
  | error {e f : Fault} (h : e.reported.errorClass = f.reported.errorClass) :
    Agree R (.error e) (.error f)

namespace Agree

variable {R : α → β → Prop} {S : γ → δ → Prop} {x : Except Fault α} {y : Except Fault β}

/-- A reading agrees with itself. -/
protected theorem refl {R : α → α → Prop} (hR : ∀ a, R a a) (x : Except Fault α) : Agree R x x := by
  cases x with
  | ok a => exact .ok (hR a)
  | error e => exact .error rfl

/-- Readings that are the same agree. -/
theorem of_eq {x y : Except Fault α} (h : x = y) : Agree Eq x y :=
  h ▸ .refl (fun _ => rfl) x

/-- Departures from the schema are errors of one class if both can be worded or neither. -/
theorem malformed {what what' : Malformation} {entity entity' : Option String}
    (h : what.isShowable = what'.isShowable) :
    Agree R (.error (.malformed what entity)) (.error (.malformed what' entity')) := by
  refine .error ?_
  cases hshow : what'.isShowable <;> simp [Fault.reported, h, hshow, Fault.errorClass,
    Fault.diagnostic]

/-- One reading after another. -/
theorem bind {f : α → Except Fault γ} {g : β → Except Fault δ} (h : Agree R x y)
    (hfg : ∀ a b, R a b → Agree S (f a) (g b)) : Agree S (x >>= f) (y >>= g) := by
  cases h with
  | ok h => exact hfg _ _ h
  | error h => exact .error h

/-- Readings of one value before two others. -/
theorem bind_eq {x y : Except Fault α} (h : Agree Eq x y) {f : α → Except Fault γ}
    {g : α → Except Fault δ} (hfg : ∀ a, Agree S (f a) (g a)) : Agree S (x >>= f) (y >>= g) :=
  h.bind fun a _ hab => hab ▸ hfg a

/-- The same reading before two others. -/
theorem bind_left (x : Except Fault α) {f : α → Except Fault γ} {g : α → Except Fault δ}
    (hfg : ∀ a, Agree S (f a) (g a)) : Agree S (x >>= f) (x >>= g) :=
  (of_eq rfl).bind_eq hfg

/-- Readings of one value before the same other. -/
theorem bind_right {x y : Except Fault α} (h : Agree Eq x y) (f : α → Except Fault γ) :
    Agree Eq (x >>= f) (y >>= f) :=
  h.bind_eq fun _ => of_eq rfl

/-- Values that are related are made into values that are related. -/
theorem map {f : α → γ} {g : β → δ} (h : Agree R x y) (hfg : ∀ a b, R a b → S (f a) (g b)) :
    Agree S (f <$> x) (g <$> y) := by
  cases h with
  | ok h => exact .ok (hfg _ _ h)
  | error h => exact .error h

/-- Lists are read item by item. -/
theorem mapM {P : α → β → Prop} {f : α → Except Fault γ} {g : β → Except Fault δ} {xs : List α}
    {ys : List β} (h : List.Forall₂ P xs ys) (hfg : ∀ a b, P a b → Agree S (f a) (g b)) :
    Agree (List.Forall₂ S) (xs.mapM f) (ys.mapM g) := by
  induction h with
  | nil => exact .ok .nil
  | cons hhead _ ih =>
    simp only [List.mapM_cons]
    exact (hfg _ _ hhead).bind fun _ _ hc => ih.bind fun _ _ hcs => .ok (.cons hc hcs)

/-- Lists that are read to the same items are read to the same list. -/
theorem mapM_eq {P : α → β → Prop} {f : α → Except Fault γ} {g : β → Except Fault γ} {xs : List α}
    {ys : List β} (h : List.Forall₂ P xs ys) (hfg : ∀ a b, P a b → Agree Eq (f a) (g b)) :
    Agree Eq (xs.mapM f) (ys.mapM g) := by
  have hread := Agree.mapM h hfg
  rwa [List.forall₂_eq_eq_eq] at hread

/-- Readings that agree have one outcome when they are reported. -/
theorem sameOutcome {x y : Except Fault α} (h : Agree Eq x y) :
    SameOutcome (x.mapError Fault.reported) (y.mapError Fault.reported) := by
  cases h with
  | ok h => exact .inl ⟨_, rfl, h ▸ rfl⟩
  | error h => exact .inr ⟨_, _, rfl, rfl, h⟩

end Agree

end Agree

end ComponentBindings
