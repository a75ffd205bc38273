import ComponentBindings.Document
import ComponentBindings.Document.Scalar.Display

/-!
# Documents in messages

An error message shows the value that it complains about. Lists stand in brackets and objects in
braces, with their scalars as values between them. A list or an object that comes again inside
itself is written once, and inside itself it is three dots in its brackets or braces.
-/

namespace ComponentBindings

namespace Document

/-- What stands for a value inside itself. -/
def ellipsis : Document → String
  | .list _ => "[...]"
  | .object _ => "\x7b...\x7d"
  | _ => "..."

mutual

/-- A value as a message shows it inside values with labels, each with what stands for it. -/
def displayWithin (around : List (Nat × String)) : Document → String
  | .scalar s => s.display
  | .list items => "[" ++ ", ".intercalate (displayItems around items) ++ "]"
  | .object members => "\x7b" ++ ", ".intercalate (displayMembers around members) ++ "\x7d"
  | .recurring label content =>
    (around.lookup label).getD (displayWithin ((label, content.ellipsis) :: around) content)
  | .again label => (around.lookup label).getD "..."

/-- The values of a list as a message shows them. -/
def displayItems (around : List (Nat × String)) : List Document → List String
  | [] => []
  | item :: rest => displayWithin around item :: displayItems around rest

/-- The members of an object as a message shows them. -/
def displayMembers (around : List (Nat × String)) : List (Scalar × Document) → List String
  | [] => []
  | (name, value) :: rest =>
    (name.display ++ ": " ++ displayWithin around value) :: displayMembers around rest

end

/-- **A value as a message shows it.** -/
def display (value : Document) : String := displayWithin [] value

mutual

/-- Whether a value can be shown. -/
def isShowable : Document → Bool
  | .scalar s => s.isShowable
  | .list items => showableItems items
  | .object members => showableMembers members
  | .recurring _ content => content.isShowable
  | .again _ => true

/-- Whether the values of a list can be shown. -/
def showableItems : List Document → Bool
  | [] => true
  | item :: rest => item.isShowable && showableItems rest

/-- Whether the members of an object can be shown. -/
def showableMembers : List (Scalar × Document) → Bool
  | [] => true
  | (name, value) :: rest => name.isShowable && value.isShowable && showableMembers rest

end

end Document

end ComponentBindings
