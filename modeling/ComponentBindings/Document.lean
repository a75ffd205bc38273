import ComponentBindings.Document.Scalar

/-!
# Documents

A document is the data that a resolved graph is decoded from: scalars, lists, and objects whose
members keep the order in which they were written. The order is part of the data. Interfaces list
their types and functions, and worlds their imports and exports, in the order of the members.

A list or an object can be an entry of itself, at any depth. Such a value is written with a label
that stands for it wherever it comes again inside itself (`Document.recurring`, `Document.again`),
so that every document is finite, and it is opened one level at a time (`Document.bare`).
-/

namespace ComponentBindings

/-- **A value of a document.** -/
inductive Document where
  /-- A value without parts. -/
  | scalar (value : Scalar)
  /-- Values in order. -/
  | list (items : List Document)
  /-- Named values in order. -/
  | object (members : List (Scalar × Document))
  /-- A list or an object in which a label stands for itself. -/
  | recurring (label : Nat) (content : Document)
  /-- The list or object around it that has a label. -/
  | again (label : Nat)
  deriving Inhabited

namespace Document

/-- The absent value. -/
@[match_pattern] abbrev null : Document := scalar .null

/-- A truth value. -/
@[match_pattern] abbrev bool (value : Bool) : Document := scalar (.bool value)

/-- An integer. -/
@[match_pattern] abbrev int (value : Int) : Document := scalar (.int value)

/-- A number that is not an integer. -/
@[match_pattern] abbrev float (value : Binary64) : Document := scalar (.float value)

/-- A text. -/
@[match_pattern] abbrev string (value : String) : Document := scalar (.text value)

mutual

/-- A value with another one in place of a label. Inside a value that has the label itself, the
label already stands for that value. -/
def fill (label : Nat) (value : Document) : Document → Document
  | scalar s => scalar s
  | list items => list (fillItems label value items)
  | object members => object (fillMembers label value members)
  | recurring l content =>
    if l = label then recurring l content else recurring l (fill label value content)
  | again l => if l = label then value else again l

/-- The values of a list with a value in place of a label. -/
def fillItems (label : Nat) (value : Document) : List Document → List Document
  | [] => []
  | item :: rest => fill label value item :: fillItems label value rest

/-- The members of an object with a value in place of a label. -/
def fillMembers (label : Nat) (value : Document) :
    List (Scalar × Document) → List (Scalar × Document)
  | [] => []
  | (name, member) :: rest => (name, fill label value member) :: fillMembers label value rest

end

/-- **A value without a label on it**: one that comes again inside itself is opened by one level.
All other values are as they are. -/
def bare : Document → Document
  | recurring label content => fill label (recurring label content) content
  | other => other

/-- The member of an object with a given name. -/
def member? (members : List (Scalar × Document)) (name : String) : Option Document :=
  members.lookup (.text name)

/-- The member of an object with a given name, a missing member being the absent value. -/
def member (members : List (Scalar × Document)) (name : String) : Document :=
  (member? members name).getD null

/-- The members of an object with one more. A name that is there already keeps its place and the
way it is written, and gets the new value. -/
def put (members : List (Scalar × Document)) (name : Scalar) (value : Document) :
    List (Scalar × Document) :=
  if members.any (·.1.same name) then
    members.map fun m => if m.1.same name then (m.1, value) else m
  else members ++ [(name, value)]

/-- Whether a value counts as empty: a scalar that does, and a list or an object with nothing in
it. -/
def isEmpty (value : Document) : Bool :=
  match value.bare with
  | scalar s => s.isEmpty
  | list items => items.isEmpty
  | object members => members.isEmpty
  | _ => false

end Document

end ComponentBindings
