import ComponentBindings.Proofs.Calls

/-!
# First come, first served

Names ask for identifiers in any order and at any time, and some of them are
refused. `NamingCall.claimsMade` are the claims after any such sequence of
calls. They are as if every call had simply been written down: an identifier
is held by the first name that has claimed it, and what comes later changes
nothing (`Claims.holder?_foldl_record`). So a claim is refused exactly if the
identifier has been granted to another name.

Which name is refused depends on the order, but not whether one is. Claims
can all be granted exactly if no two of them are for one identifier in one
scope under different names, those that are held already included
(`Claims.claimAll_eq_ok_iff`), and that condition knows of no order.
-/

namespace ComponentBindings

namespace Claims

variable {claims claims' attempts : Claims} {scope identifier raw raw' : String} {c : Claim}

/-! ## Writing claims down -/

/-- What is held by one list of claims or, failing that, by another. -/
theorem holder?_append (claims attempts : Claims) (scope identifier : String) :
    holder? (claims ++ attempts) scope identifier =
      (claims.holder? scope identifier).or (holder? attempts scope identifier) := by
  rw [holder?, List.find?_append, Option.map_or]
  rfl

/-- The holder is the name of the claim, or it is whoever comes later. -/
theorem holder?_cons : holder? (c :: claims) scope identifier =
    if c.scope = scope ∧ c.identifier = identifier then some c.raw
    else claims.holder? scope identifier := by
  by_cases h : c.scope = scope ∧ c.identifier = identifier <;> simp [holder?, h]

/-- What has been claimed is held, if not by that name. -/
theorem isSome_holder?_of_mem (h : c ∈ claims) :
    (claims.holder? c.scope c.identifier).isSome = true := by
  rw [holder?, Option.isSome_map, List.find?_isSome]
  exact ⟨c, h, by simp⟩

/-- The claims after a name has claimed an identifier, be it granted or not. -/
def record (claims : Claims) (c : Claim) : Claims :=
  claimsAfter (claim c.scope c.identifier c.raw) claims

/-- **The first to come is written down**, and nobody after. -/
theorem record_eq (claims : Claims) (c : Claim) : claims.record c =
    if (claims.holder? c.scope c.identifier).isSome then claims else claims ++ [c] := by
  unfold record claimsAfter claim register
  cases claims.holder? c.scope c.identifier with
  | none => rfl
  | some holder =>
    by_cases heq : holder = c.raw
    · simp [heq]
    · simp [heq]

/-- **Who comes first holds the identifier**, whoever else asks for it. -/
theorem holder?_foldl_record (claims attempts : Claims) (scope identifier : String) :
    holder? (attempts.foldl record claims) scope identifier =
      holder? (claims ++ attempts) scope identifier := by
  induction attempts generalizing claims with
  | nil => rw [List.foldl_nil, List.append_nil]
  | cons c rest ih =>
    rw [List.foldl_cons, ih, record_eq, holder?_append claims (c :: rest), holder?_cons]
    split
    · next hheld =>
      rw [holder?_append]
      split
      · next heq =>
        obtain ⟨rfl, rfl⟩ := heq
        obtain ⟨holder, hholder⟩ := Option.isSome_iff_exists.mp hheld
        rw [hholder, Option.some_or, Option.some_or]
      · rfl
    · rw [List.append_assoc, holder?_append, List.singleton_append, holder?_cons]

/-! ## Tables -/

/-- Claims in which every identifier is held once in a scope. -/
def Single (claims : Claims) : Prop := (claims.map fun c => (c.scope, c.identifier)).Nodup

/-- An identifier that is claimed anew is not held yet. -/
theorem Single.record (h : claims.Single) (c : Claim) : (claims.record c).Single := by
  rw [record_eq]
  split
  · exact h
  · next hfree =>
    rw [Single, List.map_append, List.map_singleton, ← List.concat_eq_append]
    refine List.Nodup.concat (fun hmem => hfree ?_) h
    obtain ⟨c', hc', heq⟩ := List.mem_map.mp hmem
    obtain ⟨hscope, hidentifier⟩ := Prod.mk.inj heq
    rw [← hscope, ← hidentifier]
    exact isSome_holder?_of_mem hc'

/-- No identifier is held twice, whoever asks for it. -/
theorem single_foldl_record (h : claims.Single) (attempts : Claims) :
    Single (attempts.foldl record claims) := by
  induction attempts generalizing claims with
  | nil => exact h
  | cons c rest ih => exact ih (h.record c)

/-- Where every identifier is held once, a name that claims one holds it. -/
theorem Single.holder?_eq_some_iff (h : claims.Single) :
    claims.holder? scope identifier = some raw ↔ ⟨scope, identifier, raw⟩ ∈ claims := by
  refine ⟨mem_of_holder?, fun hmem => ?_⟩
  obtain ⟨holder, hholder⟩ := Option.isSome_iff_exists.mp (isSome_holder?_of_mem hmem)
  have heq := List.inj_on_of_nodup_map h hmem (mem_of_holder? hholder) rfl
  rw [hholder, (Claim.mk.inj heq).2.2]

/-- The identifiers of a table are different. -/
theorem Single.nodup_registered (h : claims.Single) (scope : String) :
    ((claims.registered scope).map Prod.fst).Nodup := by
  rw [registered, List.map_map]
  refine List.Nodup.map_on ?_ (h.of_map.filter _)
  intro c hc c' hc' heq
  refine List.inj_on_of_nodup_map h (List.mem_of_mem_filter hc) (List.mem_of_mem_filter hc') ?_
  have hscope : c.scope = scope := by simpa using List.of_mem_filter hc
  have hscope' : c'.scope = scope := by simpa using List.of_mem_filter hc'
  exact Prod.ext (hscope.trans hscope'.symm) heq

/-- **A table tells the holders** of its scope. -/
theorem lookup_registered (claims : Claims) (scope identifier : String) :
    (claims.registered scope).lookup identifier = claims.holder? scope identifier := by
  induction claims with
  | nil => rfl
  | cons c rest ih =>
    rw [holder?_cons, ← ih]
    unfold registered
    by_cases hscope : c.scope = scope
    · by_cases hidentifier : c.identifier = identifier
      · simp [hscope, hidentifier]
      · have hne : (identifier == c.identifier) = false :=
          beq_eq_false_iff_ne.mpr (Ne.symm hidentifier)
        simp [hscope, hidentifier, List.lookup_cons, hne]
    · simp [hscope]

/-- A table only grows at its end. -/
theorem registered_isPrefix (h : claims <+: claims') (scope : String) :
    claims.registered scope <+: claims'.registered scope :=
  (h.filter _).map _

/-! ## Claims in any order -/

/-- Claims that are made one after the other, up to the first that is refused. -/
def claimAll (requests : List Claim) : Naming Unit :=
  requests.forM fun c => claim c.scope c.identifier c.raw

/-- A name that holds an identifier, or is about to claim it. -/
def Wanted (claims : Claims) (requests : List Claim) (scope identifier raw : String) : Prop :=
  claims.holder? scope identifier = some raw ∨ ⟨scope, identifier, raw⟩ ∈ requests

/-- **Claims that agree** with each other and with what is held already. -/
def Agree (claims : Claims) (requests : List Claim) : Prop :=
  ∀ {scope identifier raw raw'}, claims.Wanted requests scope identifier raw →
    claims.Wanted requests scope identifier raw' → raw = raw'

variable {requests requests' : List Claim}

/-- **Agreement knows of no order.** -/
theorem Agree.perm (h : claims.Agree requests) (hperm : requests.Perm requests') :
    claims.Agree requests' := by
  intro scope identifier raw raw' hwanted hwanted'
  exact h (hwanted.imp_right hperm.mem_iff.mpr) (hwanted'.imp_right hperm.mem_iff.mpr)

/-- A claim that is granted is wanted before and held after. -/
theorem wanted_of_register (h : claims.register c.scope c.identifier c.raw = .ok claims') :
    claims'.Wanted requests scope identifier raw ↔
      claims.Wanted (c :: requests) scope identifier raw := by
  have hheld : claims'.holder? scope identifier = some raw ↔
      claims.holder? scope identifier = some raw ∨ ⟨scope, identifier, raw⟩ = c := by
    constructor
    · intro hholder
      cases hbefore : claims.holder? scope identifier with
      | some holder =>
        have hstill := holder?_of_isPrefix (isPrefix_of_register h) hbefore
        exact .inl (hstill.symm.trans hholder)
      | none =>
        refine .inr ((mem_of_register h (mem_of_holder? hholder)).resolve_left fun hmem => ?_)
        simpa [hbefore] using isSome_holder?_of_mem hmem
    · rintro (hholder | rfl)
      · exact holder?_of_isPrefix (isPrefix_of_register h) hholder
      · exact holder?_of_register h
  rw [Wanted, Wanted, hheld, List.mem_cons, or_assoc]

/-- **What is held in the end** is what was wanted. -/
theorem holder?_of_claimAll (h : claimAll requests claims = .ok () claims') :
    claims'.holder? scope identifier = some raw ↔
      claims.Wanted requests scope identifier raw := by
  induction requests generalizing claims with
  | nil =>
    obtain ⟨-, rfl⟩ := pure_eq_ok.mp h
    simp [Wanted]
  | cons c requests ih =>
    obtain ⟨_, claims'', hclaim, hrest⟩ := bind_eq_ok.mp h
    rw [ih hrest, wanted_of_register (claim_eq_ok.mp hclaim)]

/-- **Claims can be granted one after the other exactly if they agree.** -/
theorem claimAll_eq_ok_iff :
    (∃ claims', claimAll requests claims = .ok () claims') ↔ claims.Agree requests := by
  constructor
  · rintro ⟨claims', h⟩ scope identifier raw raw' hwanted hwanted'
    have hheld := (holder?_of_claimAll h).mpr hwanted
    exact Option.some.inj (hheld.symm.trans ((holder?_of_claimAll h).mpr hwanted'))
  · intro hagree
    induction requests generalizing claims with
    | nil => exact ⟨claims, rfl⟩
    | cons c requests ih =>
      have hwanted : claims.Wanted (c :: requests) c.scope c.identifier c.raw :=
        .inr List.mem_cons_self
      cases hregister : claims.register c.scope c.identifier c.raw with
      | error fault =>
        obtain ⟨holder, hheld, hne, -⟩ := register_eq_error.mp hregister
        exact absurd (hagree (.inl hheld) hwanted) hne
      | ok claims'' =>
        obtain ⟨claims', hrest⟩ := ih fun h h' =>
          hagree ((wanted_of_register hregister).mp h) ((wanted_of_register hregister).mp h')
        exact ⟨claims', bind_eq_ok.mpr ⟨(), claims'', claim_eq_ok.mpr hregister, hrest⟩⟩

end Claims

/-! ## Calls -/

/-- **What a table of names is asked.** -/
inductive NamingCall where
  /-- For the identifier of a name, to be claimed in a scope if there is one. -/
  | derive (c : Convention) (raw : String) (scope : Option String)
  /-- To let a name have an identifier in a scope. -/
  | register (scope identifier raw : String)
  /-- For the identifiers of a scope. -/
  | registered (scope : String)

/-- What it answers. -/
inductive NamingAnswer where
  /-- Nothing. -/
  | done
  /-- An identifier. -/
  | identifier (identifier : String)
  /-- The identifiers of a scope with the names that hold them. -/
  | table (entries : List (String × String))
  deriving DecidableEq

namespace NamingCall

variable {reserved : List String} {claims claims' : Claims} {call : NamingCall} {c : Claim}
  {before : List NamingCall} {scope identifier raw : String}

/-- What is done for a call. -/
def perform (reserved : List String) : NamingCall → Naming NamingAnswer
  | derive c raw none => .identifier <$> convert c raw reserved
  | derive c raw (some scope) => .identifier <$> declare c raw scope reserved
  | register scope identifier raw => (fun _ => .done) <$> claim scope identifier raw
  | registered scope => (fun claims => .table (claims.registered scope)) <$> get

/-- The claim that a call makes. A name without an identifier claims none. -/
def claim? (reserved : List String) : NamingCall → Option Claim
  | derive c raw (some scope) =>
    match identifierOf c raw reserved with
    | .ok identifier => some ⟨scope, identifier, raw⟩
    | .error _ => none
  | register scope identifier raw => some ⟨scope, identifier, raw⟩
  | derive _ _ none | registered _ => none

/-- The claims after a sequence of calls, answered or not. -/
def claimsMade (reserved : List String) (calls : List NamingCall) : Claims :=
  calls.foldl (fun claims call => claimsAfter (call.perform reserved) claims) []

/-- **A claim that was granted** at some time. -/
def Granted (reserved : List String) (before : List NamingCall) (c : Claim) : Prop :=
  ∃ earlier call later answer claims, before = earlier ++ call :: later ∧
    call.claim? reserved = some c ∧
    call.perform reserved (claimsMade reserved earlier) = .ok answer claims

/-- A call collides with a name if that is why it is refused. -/
def Collides (reserved : List String) (before : List NamingCall) (call : NamingCall) : Prop :=
  ∃ scope identifier first second claims,
    call.perform reserved (claimsMade reserved before)
      = .error (.nameCollision scope identifier first second) claims

/-! ### One call -/

/-- What a name claims has been derived from it. -/
theorem claim?_derive_eq_some {convention : Convention} :
    (derive convention raw (some scope)).claim? reserved = some c ↔
      ∃ identifier, identifierOf convention raw reserved = .ok identifier ∧
        c = ⟨scope, identifier, raw⟩ := by
  simp only [claim?]
  cases identifierOf convention raw reserved <;> simp [eq_comm (a := c)]

/-- A call is answered if its claim is granted. -/
theorem perform_of_granted (h : call.claim? reserved = some c)
    (hgranted : claims.register c.scope c.identifier c.raw = .ok claims') :
    ∃ answer, call.perform reserved claims = .ok answer claims' := by
  cases call with
  | derive convention raw scope =>
    cases scope with
    | none => cases h
    | some scope =>
      obtain ⟨identifier, hidentifier, rfl⟩ := claim?_derive_eq_some.mp h
      exact ⟨_, map_eq_ok.mpr ⟨_, declare_eq_ok.mpr ⟨hidentifier, hgranted⟩, rfl⟩⟩
  | register scope identifier raw =>
    obtain rfl := Option.some.inj h
    exact ⟨_, map_eq_ok.mpr ⟨(), claim_eq_ok.mpr hgranted, rfl⟩⟩
  | registered scope => cases h

/-- A call fails as its claim does, and leaves the claims as they are. -/
theorem perform_of_refused {fault : Fault} (h : call.claim? reserved = some c)
    (hrefused : claims.register c.scope c.identifier c.raw = .error fault) :
    call.perform reserved claims = .error fault claims := by
  cases call with
  | derive convention raw scope =>
    cases scope with
    | none => cases h
    | some scope =>
      obtain ⟨identifier, hidentifier, rfl⟩ := claim?_derive_eq_some.mp h
      exact map_eq_error.mpr
        (declare_eq_error.mpr ⟨.inr ⟨identifier, hidentifier, hrefused⟩, rfl⟩)
  | register scope identifier raw =>
    obtain rfl := Option.some.inj h
    exact map_eq_error.mpr (claim_eq_error.mpr ⟨hrefused, rfl⟩)
  | registered scope => cases h

/-- A call without a claim leaves the claims as they are, and fails only for a
name that has no identifier. -/
theorem perform_of_claimless (h : call.claim? reserved = none) (claims : Claims) :
    (∃ answer, call.perform reserved claims = .ok answer claims) ∨
      ∃ raw, call.perform reserved claims = .error (.noIdentifier raw) claims := by
  cases call with
  | derive convention raw scope =>
    cases hidentifier : identifierOf convention raw reserved with
    | error fault =>
      obtain rfl := identifierOf_eq_error hidentifier
      refine .inr ⟨raw, ?_⟩
      cases scope with
      | none => exact map_eq_error.mpr (convert_eq_error.mpr ⟨hidentifier, rfl⟩)
      | some scope => exact map_eq_error.mpr (declare_eq_error.mpr ⟨.inl hidentifier, rfl⟩)
    | ok identifier =>
      cases scope with
      | none => exact .inl ⟨_, map_eq_ok.mpr ⟨_, convert_eq_ok.mpr ⟨hidentifier, rfl⟩, rfl⟩⟩
      | some scope =>
        have hclaim : (derive convention raw (some scope)).claim? reserved
            = some ⟨scope, identifier, raw⟩ :=
          claim?_derive_eq_some.mpr ⟨identifier, hidentifier, rfl⟩
        rw [h] at hclaim
        cases hclaim
  | register scope identifier raw => cases h
  | registered scope => exact .inl ⟨_, rfl⟩

/-- **A call that fails leaves the claims as they are.** -/
theorem eq_of_perform_eq_error {fault : Fault}
    (h : call.perform reserved claims = .error fault claims') : claims' = claims := by
  cases hclaim : call.claim? reserved with
  | none =>
    rcases perform_of_claimless hclaim claims with ⟨_, hok⟩ | ⟨_, herror⟩
    · rw [hok] at h
      cases h
    · rw [herror] at h
      cases h
      rfl
  | some c =>
    cases hregister : claims.register c.scope c.identifier c.raw with
    | ok claims'' =>
      obtain ⟨_, hok⟩ := perform_of_granted hclaim hregister
      rw [hok] at h
      cases h
    | error fault' =>
      rw [perform_of_refused hclaim hregister] at h
      cases h
      rfl

/-- A call records its claim. -/
theorem claimsAfter_perform (call : NamingCall) (claims : Claims) :
    claimsAfter (call.perform reserved) claims =
      (call.claim? reserved).elim claims claims.record := by
  cases hclaim : call.claim? reserved with
  | none =>
    rcases perform_of_claimless hclaim claims with ⟨_, hok⟩ | ⟨_, herror⟩
    · exact claimsAfter_of_ok hok
    · rw [claimsAfter, herror]
      rfl
  | some c =>
    rw [Option.elim_some, Claims.record]
    cases hregister : claims.register c.scope c.identifier c.raw with
    | ok claims' =>
      obtain ⟨_, hok⟩ := perform_of_granted hclaim hregister
      have hclaimed : claim c.scope c.identifier c.raw claims = .ok () claims' :=
        claim_eq_ok.mpr hregister
      rw [claimsAfter_of_ok hok, claimsAfter_of_ok hclaimed]
    | error fault =>
      rw [claimsAfter, claimsAfter, perform_of_refused hclaim hregister,
        claim_eq_error.mpr ⟨hregister, rfl⟩]

/-! ### Sequences of calls -/

/-- **Calls record their claims**, one after the other. -/
theorem claimsMade_eq (calls : List NamingCall) :
    claimsMade reserved calls = (calls.filterMap (claim? reserved)).foldl Claims.record [] := by
  rw [claimsMade, List.foldl_filterMap]
  congr 1
  funext claims call
  rw [claimsAfter_perform]
  cases call.claim? reserved <;> rfl

/-- No identifier is held twice. -/
theorem single_claimsMade (calls : List NamingCall) : (claimsMade reserved calls).Single := by
  rw [claimsMade_eq]
  exact Claims.single_foldl_record (show Claims.Single [] from List.nodup_nil) _

/-- The claims after more calls. -/
theorem claimsMade_append (reserved : List String) (before more : List NamingCall) :
    claimsMade reserved (before ++ more) =
      more.foldl (fun claims call => claimsAfter (call.perform reserved) claims)
        (claimsMade reserved before) := by
  rw [claimsMade, List.foldl_append]
  rfl

/-- Whatever is done for a call only adds claims. -/
theorem addsClaims_perform (call : NamingCall) : AddsClaims (call.perform reserved) := by
  intro claims
  rw [claimsAfter_perform]
  cases call.claim? reserved with
  | none => exact List.prefix_rfl
  | some c => exact AddsClaims.claim claims

/-- **More calls make more claims.** -/
theorem claimsMade_isPrefix (reserved : List String) (before more : List NamingCall) :
    claimsMade reserved before <+: claimsMade reserved (before ++ more) := by
  induction more using List.reverseRecOn with
  | nil => rw [List.append_nil]
  | append_singleton more call ih =>
    rw [← List.append_assoc, claimsMade_append]
    exact ih.trans (addsClaims_perform call _)

/-- **What is on record was granted**, and what was granted is on record. -/
theorem mem_claimsMade_iff : c ∈ claimsMade reserved before ↔ Granted reserved before c := by
  constructor
  · induction before using List.reverseRecOn with
    | nil => exact fun h => absurd h List.not_mem_nil
    | append_singleton before call ih =>
      intro h
      rw [claimsMade_append, List.foldl_cons, List.foldl_nil] at h
      have hbefore : c ∈ claimsMade reserved before → Granted reserved (before ++ [call]) c := by
        intro hmem
        obtain ⟨earlier, call', later, answer, claims, rfl, hgranted⟩ := ih hmem
        exact ⟨earlier, call', later ++ [call], answer, claims, by simp, hgranted⟩
      cases hclaim : call.claim? reserved with
      | none =>
        rw [claimsAfter_perform, hclaim] at h
        exact hbefore h
      | some c' =>
        cases hregister : (claimsMade reserved before).register c'.scope c'.identifier c'.raw with
        | error fault =>
          rw [claimsAfter, perform_of_refused hclaim hregister] at h
          exact hbefore h
        | ok claims =>
          obtain ⟨answer, hok⟩ := perform_of_granted hclaim hregister
          rw [claimsAfter_of_ok hok] at h
          rcases Claims.mem_of_register hregister h with hmem | rfl
          · exact hbefore hmem
          · exact ⟨before, call, [], answer, claims, rfl, hclaim, hok⟩
  · rintro ⟨earlier, call, later, answer, claims, rfl, hclaim, hok⟩
    have hprefix : claims <+: claimsMade reserved (earlier ++ call :: later) := by
      have hmore := claimsMade_isPrefix reserved (earlier ++ [call]) later
      rwa [claimsMade_append, List.foldl_cons, List.foldl_nil, claimsAfter_of_ok hok,
        List.append_assoc] at hmore
    cases hregister : (claimsMade reserved earlier).register c.scope c.identifier c.raw with
    | error fault =>
      rw [perform_of_refused hclaim hregister] at hok
      cases hok
    | ok claims' =>
      obtain ⟨_, hok'⟩ := perform_of_granted hclaim hregister
      rw [hok] at hok'
      cases hok'
      exact hprefix.subset (Claims.mem_of_holder? (Claims.holder?_of_register hregister))

/-- **A table to which names are only added**, first come, first served. -/
structure FirstServed (reserved : List String) (before : List NamingCall) : Prop where
  /-- The identifiers of a scope are different. -/
  nodup : ∀ scope, (((claimsMade reserved before).registered scope).map Prod.fst).Nodup
  /-- Each of them is held by the first name that has claimed it. -/
  first : ∀ scope identifier, ((claimsMade reserved before).registered scope).lookup identifier =
    Claims.holder? (before.filterMap (claim? reserved)) scope identifier
  /-- Whatever comes later, they stay as they are. -/
  kept : ∀ more scope, (claimsMade reserved before).registered scope <+:
    (claimsMade reserved (before ++ more)).registered scope
  /-- A claim is refused exactly if another name has been granted the
  identifier, which is reported with both names. -/
  refused : ∀ (call : NamingCall) (c : Claim), call.claim? reserved = some c → ∀ fault,
    (∃ claims, call.perform reserved (claimsMade reserved before) = .error fault claims) ↔
      ∃ holder, Granted reserved before ⟨c.scope, c.identifier, holder⟩ ∧ holder ≠ c.raw ∧
        fault = .nameCollision c.scope c.identifier holder c.raw
  /-- A call that makes no claim does not collide. -/
  claimless : ∀ call : NamingCall, call.claim? reserved = none → ¬ Collides reserved before call
  /-- A call that fails leaves all scopes as they are. -/
  failed : ∀ (call : NamingCall) fault claims,
    call.perform reserved (claimsMade reserved before) = .error fault claims →
      claims = claimsMade reserved before
  /-- Claims are granted in one order exactly if they are granted in another,
  and the tables are the same then. -/
  reordered : ∀ requests requests' : List Claim, requests.Perm requests' →
    ((∃ claims, Claims.claimAll requests (claimsMade reserved before) = .ok () claims) ↔
      ∃ claims, Claims.claimAll requests' (claimsMade reserved before) = .ok () claims) ∧
    ∀ claims claims', Claims.claimAll requests (claimsMade reserved before) = .ok () claims →
      Claims.claimAll requests' (claimsMade reserved before) = .ok () claims' →
        ∀ scope identifier, (claims.registered scope).lookup identifier =
          (claims'.registered scope).lookup identifier

/-- **First come, first served**, whichever words are reserved and whatever has
been asked for before. -/
theorem firstServed (reserved : List String) (before : List NamingCall) :
    FirstServed reserved before := by
  refine ⟨?nodup, ?first, ?kept, ?refused, ?claimless, ?failed, ?reordered⟩
  case nodup => exact (single_claimsMade before).nodup_registered
  case first =>
    intro scope identifier
    rw [Claims.lookup_registered, claimsMade_eq, Claims.holder?_foldl_record, List.nil_append]
  case kept =>
    intro more scope
    exact Claims.registered_isPrefix (claimsMade_isPrefix reserved before more) scope
  case refused =>
    intro call c hclaim fault
    have hperform : (∃ claims, call.perform reserved (claimsMade reserved before)
        = .error fault claims) ↔
        (claimsMade reserved before).register c.scope c.identifier c.raw = .error fault := by
      constructor
      · rintro ⟨claims, herror⟩
        cases hregister : (claimsMade reserved before).register c.scope c.identifier c.raw with
        | ok claims' =>
          obtain ⟨_, hok⟩ := perform_of_granted hclaim hregister
          rw [hok] at herror
          cases herror
        | error fault' =>
          rw [perform_of_refused hclaim hregister] at herror
          cases herror
          rfl
      · exact fun hrefused => ⟨_, perform_of_refused hclaim hrefused⟩
    rw [hperform, Claims.register_eq_error]
    refine exists_congr fun holder => ?_
    rw [(single_claimsMade before).holder?_eq_some_iff, mem_claimsMade_iff]
  case claimless =>
    rintro call hclaim ⟨_, _, _, _, _, herror⟩
    rcases perform_of_claimless hclaim (claimsMade reserved before) with ⟨_, hok⟩ | ⟨_, hnone⟩
    · rw [hok] at herror
      cases herror
    · rw [hnone] at herror
      cases herror
  case failed => exact fun call fault claims => eq_of_perform_eq_error
  case reordered =>
    intro requests requests' hperm
    rw [Claims.claimAll_eq_ok_iff, Claims.claimAll_eq_ok_iff]
    refine ⟨⟨fun h => h.perm hperm, fun h => h.perm hperm.symm⟩, ?_⟩
    intro claims claims' h h' scope identifier
    rw [Claims.lookup_registered, Claims.lookup_registered]
    refine Option.ext fun holder => ?_
    rw [Claims.holder?_of_claimAll h, Claims.holder?_of_claimAll h']
    exact or_congr_right hperm.mem_iff

/-- Of three spellings of one identifier, the first has it. The second has been
refused, and the third is refused as well, in favour of the first. -/
theorem firstServed_spellings :
    let before := [derive .type "a-b" (some "s"), derive .type "A_b" (some "s"), registered "s"]
    (claimsMade reservedWords before).registered "s" = [("AB", "a-b")] ∧
      (derive .type "A-B" (some "s")).claim? reservedWords = some ⟨"s", "AB", "A-B"⟩ ∧
      ∃ claims,
        (derive .type "A-B" (some "s")).perform reservedWords (claimsMade reservedWords before)
          = .error (.nameCollision "s" "AB" "a-b" "A-B") claims := by
  intro before
  have hclaim : (derive .type "A-B" (some "s")).claim? reservedWords
      = some ⟨"s", "AB", "A-B"⟩ := by rfl
  have hgranted : Granted reservedWords before ⟨"s", "AB", "a-b"⟩ :=
    ⟨[], derive .type "a-b" (some "s"), _, .identifier "AB", _, rfl, by rfl, by rfl⟩
  have hrefused := (firstServed reservedWords before).refused _ _ hclaim
    (.nameCollision "s" "AB" "a-b" "A-B")
  exact ⟨by rfl, hclaim, hrefused.mpr ⟨"a-b", hgranted, by decide, rfl⟩⟩

end NamingCall

end ComponentBindings
