import ComponentBindings.Identifier.Reserved

/-!
# Claims to identifiers

Different names can become one identifier: `a-b` and `A_b` are both `aB`. So
a name claims its identifier in a scope, which is any text, and a claim fails
when another name holds the identifier there. A name may repeat its own claim
as often as it likes. Claims are never changed and never withdrawn, and a
claim that fails leaves everything as it was.

`Naming` is the activity that makes claims: a computation that goes from
claims to claims and may end in a fault. The claims that were made before a
fault stay.
-/

namespace ComponentBindings

/-- A name that holds an identifier in a scope. -/
structure Claim where
  /-- The scope. -/
  scope : String
  /-- The identifier. -/
  identifier : String
  /-- The name that it stands for. -/
  raw : String
  deriving DecidableEq, Repr

/-- All claims, in the order in which they were made. -/
abbrev Claims := List Claim

namespace Claims

/-- The name that holds an identifier in a scope. -/
def holder? (claims : Claims) (scope identifier : String) : Option String :=
  (claims.find? fun c => c.scope = scope && c.identifier = identifier).map Claim.raw

/-- The identifiers held in a scope with the names that hold them, in the
order of the claims. -/
def registered (claims : Claims) (scope : String) : List (String × String) :=
  (claims.filter (·.scope = scope)).map fun c => (c.identifier, c.raw)

/-- The claims after a name has claimed an identifier. -/
def register (claims : Claims) (scope identifier raw : String) : Except Fault Claims :=
  match claims.holder? scope identifier with
  | none => .ok (claims ++ [⟨scope, identifier, raw⟩])
  | some holder =>
    if holder = raw then .ok claims else .error (.nameCollision scope identifier holder raw)

end Claims

/-- Computations that make claims. -/
abbrev Naming := EStateM Fault Claims

/-- Claim an identifier for a name. -/
def claim (scope identifier raw : String) : Naming Unit := fun claims =>
  match claims.register scope identifier raw with
  | .ok claims => .ok () claims
  | .error fault => .error fault claims

/-- The identifier of a name, with no claim to it. -/
def convert (c : Convention) (raw : String) (reserved : List String := reservedWords) :
    Naming String :=
  match identifierOf c raw reserved with
  | .ok identifier => pure identifier
  | .error fault => throw fault

/-- The identifier of a name, claimed in a scope. -/
def declare (c : Convention) (raw scope : String) (reserved : List String := reservedWords) :
    Naming String := do
  let identifier ← convert c raw reserved
  claim scope identifier raw
  return identifier

end ComponentBindings
