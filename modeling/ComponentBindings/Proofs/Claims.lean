import ComponentBindings.Proofs.Emission

/-!
# What a claim that was granted tells

A name that has been granted an identifier holds it for good: claims are only
added, and the first claim to an identifier decides
(`Claims.holder?_of_isPrefix`). That makes the claims of a run a record of
its names. If two names were granted one identifier in one scope, at whatever
times, then they are the same name – both hold the identifier at the end, and
it has one holder.
-/

namespace ComponentBindings

namespace Claims

variable {claims claims' : Claims} {scope identifier raw : String}

/-- **A holder stays the holder** while claims are added. -/
theorem holder?_of_isPrefix (h : claims <+: claims')
    (hold : claims.holder? scope identifier = some raw) :
    claims'.holder? scope identifier = some raw := by
  obtain ⟨more, rfl⟩ := h
  obtain ⟨c, hc, hraw⟩ := Option.map_eq_some_iff.mp hold
  unfold holder?
  rw [List.find?_append, hc]
  exact congrArg some hraw

/-- A name that holds an identifier has claimed it. -/
theorem mem_of_holder? (h : claims.holder? scope identifier = some raw) :
    (⟨scope, identifier, raw⟩ : Claim) ∈ claims := by
  obtain ⟨c, hc, rfl⟩ := Option.map_eq_some_iff.mp h
  have hfound := List.find?_some hc
  simp only [Bool.and_eq_true, decide_eq_true_eq] at hfound
  obtain ⟨rfl, rfl⟩ := hfound
  exact List.mem_of_find?_eq_some hc

/-- **Claims that hold no more than others do**: what is held by a name is held
by the same name there. -/
def Within (claims claims' : Claims) : Prop :=
  ∀ {scope identifier raw}, claims.holder? scope identifier = some raw →
    claims'.holder? scope identifier = some raw

/-- Claims are within those that they grow into. -/
theorem within_of_isPrefix (h : claims <+: claims') : claims.Within claims' :=
  holder?_of_isPrefix h

/-- A claim that is granted is added at the end, or was there already. -/
theorem isPrefix_of_register (h : claims.register scope identifier raw = .ok claims') :
    claims <+: claims' := by
  unfold register at h
  split at h
  · cases h
    exact List.prefix_append _ _
  · split at h
    · cases h
      exact List.prefix_rfl
    · cases h

/-- What is on record after a claim was granted was there before, or is that
claim. -/
theorem mem_of_register (h : claims.register scope identifier raw = .ok claims') {c : Claim}
    (hc : c ∈ claims') : c ∈ claims ∨ c = ⟨scope, identifier, raw⟩ := by
  unfold register at h
  split at h
  · cases h
    exact (List.mem_append.mp hc).imp_right List.mem_singleton.mp
  · split at h
    · cases h
      exact .inl hc
    · cases h

/-- A claim is refused where another name holds the identifier. -/
theorem register_eq_error {fault : Fault} :
    claims.register scope identifier raw = .error fault ↔
      ∃ holder, claims.holder? scope identifier = some holder ∧ holder ≠ raw ∧
        fault = .nameCollision scope identifier holder raw := by
  unfold register
  cases claims.holder? scope identifier with
  | none => simp
  | some holder =>
    by_cases heq : holder = raw
    · simp [heq]
    · simp only [heq, if_false, Except.error.injEq, Option.some.injEq, exists_eq_left', ne_eq,
        not_false_eq_true, true_and]
      exact eq_comm

/-- **Who is granted an identifier holds it.** -/
theorem holder?_of_register (h : claims.register scope identifier raw = .ok claims') :
    claims'.holder? scope identifier = some raw := by
  unfold register at h
  split at h
  · next hfree =>
    cases h
    have hnone := Option.map_eq_none_iff.mp hfree
    unfold holder?
    rw [List.find?_append, hnone]
    simp
  · next holder hheld =>
    split at h
    · next heq =>
      cases h
      rw [hheld, heq]
    · cases h

/-- A claim to what is held already is granted and changes nothing. -/
theorem register_of_holder? (h : claims.holder? scope identifier = some raw) :
    claims.register scope identifier raw = .ok claims := by
  unfold register
  simp [h]

/-- **A claim that others have granted is granted**, and what is held is still
within what they hold. -/
theorem Within.register {all : Claims} (h : claims.Within all)
    (hheld : all.holder? scope identifier = some raw) :
    ∃ claims', claims.register scope identifier raw = .ok claims' ∧ claims'.Within all := by
  cases hholder : claims.holder? scope identifier with
  | some holder =>
    obtain rfl : holder = raw := Option.some.inj ((h hholder).symm.trans hheld)
    exact ⟨claims, register_of_holder? hholder, h⟩
  | none =>
    refine ⟨claims ++ [⟨scope, identifier, raw⟩], by simp [Claims.register, hholder], ?_⟩
    intro scope' identifier' raw' hnew
    unfold holder? at hnew
    rw [List.find?_append, List.find?_singleton] at hnew
    -- What is held now was held before, or by the new claim.
    cases hold : List.find? (fun c => c.scope = scope' && c.identifier = identifier') claims with
    | some c =>
      refine h ?_
      rw [holder?, hold, ← hnew, hold, Option.some_or]
    | none =>
      rw [hold, Option.none_or] at hnew
      split at hnew
      · next heq =>
        obtain ⟨rfl, rfl⟩ : scope = scope' ∧ identifier = identifier' := by simpa using heq
        obtain rfl : raw = raw' := by simpa using hnew
        exact hheld
      · cases hnew

end Claims

variable {c : Convention} {scope identifier raw : String} {reserved : List String}
  {claims claims' : Claims}

/-- A claim is granted as `Claims.register` says. -/
@[simp] theorem claim_eq_ok {u : Unit} :
    claim scope identifier raw claims = .ok u claims' ↔
      claims.register scope identifier raw = .ok claims' := by
  unfold claim
  cases claims.register scope identifier raw <;> simp

/-- A conversion needs no claims. -/
@[simp] theorem convert_eq_ok :
    convert c raw reserved claims = .ok identifier claims' ↔
      identifierOf c raw reserved = .ok identifier ∧ claims = claims' := by
  unfold convert
  cases identifierOf c raw reserved <;> simp

/-- A declared name has its identifier, and holds it. -/
@[simp] theorem declare_eq_ok :
    declare c raw scope reserved claims = .ok identifier claims' ↔
      identifierOf c raw reserved = .ok identifier ∧
        claims.register scope identifier raw = .ok claims' := by
  simp only [declare, bind_eq_ok, convert_eq_ok, claim_eq_ok, pure_eq_ok]
  constructor
  · rintro ⟨name, s, ⟨hname, rfl⟩, _, s', hreg, rfl, rfl⟩
    exact ⟨hname, hreg⟩
  · rintro ⟨hname, hreg⟩
    exact ⟨identifier, claims, ⟨hname, rfl⟩, (), claims', hreg, rfl, rfl⟩

variable {fault : Fault}

/-- A claim that is refused leaves all claims as they are. -/
theorem claim_eq_error :
    claim scope identifier raw claims = .error fault claims' ↔
      claims.register scope identifier raw = .error fault ∧ claims = claims' := by
  unfold claim
  cases claims.register scope identifier raw <;> simp

/-- A name without an identifier leaves all claims as they are. -/
theorem convert_eq_error :
    convert c raw reserved claims = .error fault claims' ↔
      identifierOf c raw reserved = .error fault ∧ claims = claims' := by
  unfold convert
  cases identifierOf c raw reserved <;> simp

/-- A name that cannot be declared has no identifier or is refused it, and
leaves all claims as they are. -/
theorem declare_eq_error :
    declare c raw scope reserved claims = .error fault claims' ↔
      (identifierOf c raw reserved = .error fault ∨
        ∃ identifier, identifierOf c raw reserved = .ok identifier ∧
          claims.register scope identifier raw = .error fault) ∧ claims = claims' := by
  simp only [declare, bind_eq_error, convert_eq_error, convert_eq_ok, claim_eq_error, pure_ne_error,
    and_false, exists_false, or_false]
  constructor
  · rintro (⟨hnone, rfl⟩ | ⟨identifier, _, ⟨hidentifier, rfl⟩, hrefused, rfl⟩)
    · exact ⟨.inl hnone, rfl⟩
    · exact ⟨.inr ⟨identifier, hidentifier, hrefused⟩, rfl⟩
  · rintro ⟨hnone | ⟨identifier, hidentifier, hrefused⟩, rfl⟩
    · exact .inl ⟨hnone, rfl⟩
    · exact .inr ⟨identifier, claims, ⟨hidentifier, rfl⟩, hrefused, rfl⟩

end ComponentBindings
