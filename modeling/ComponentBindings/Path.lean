import ComponentBindings.Text.CodePoint
import ComponentBindings.Text.Pieces

/-!
# Paths

A path is written with slashes between its parts. Empty parts and parts that
are one dot say nothing and are left out, so that two spellings of a path
which differ in them are the same path. A part of two dots is kept: where it
leads is known only to a file system.
-/

namespace ComponentBindings

/-- **A path.** -/
structure Path where
  /-- The slashes in front: none for a path that starts at the working
  directory, one for a path that starts at the root, and two where exactly
  two are written. -/
  slashes : Nat
  /-- The names between the slashes. -/
  parts : List String
  deriving DecidableEq, Repr

namespace Path

/-- Whether a part of a path leads anywhere. -/
def isPart (name : String) : Bool := name ≠ "" && name ≠ "."

/-- The path that a text is. -/
def ofString (text : String) : Path where
  slashes :=
    let n := (text.toList.takeWhile (· = '/')).length
    if n ≤ 2 then n else 1
  parts := ((Text.pieces (· = '/') text.toList).map String.ofList).filter isPart

/-- The text of a path. The path without parts from the working directory is
a dot. -/
def text (p : Path) : String :=
  if p.slashes = 0 && p.parts.isEmpty then "."
  else String.ofList (List.replicate p.slashes '/') ++ "/".intercalate p.parts

/-- A path from where another one leads to. A path from the root goes there
from everywhere. -/
def join (p q : Path) : Path :=
  if q.slashes = 0 then { p with parts := p.parts ++ q.parts } else q

/-- The path of the directory that holds what a path leads to. -/
def parent (p : Path) : Path := { p with parts := p.parts.dropLast }

/-- Whether a part of a path has the character that ends a path for a file
system. -/
def hasNul (p : Path) : Bool := p.parts.any (·.toList.contains '\x00')

/-- The most bytes that a path may have. -/
def sizeLimit : Nat := 4095

/-- Whether a file system can follow a path: its text can be encoded, is not
too long, and does not hold the character that would end it. -/
def isUsable (p : Path) : Bool :=
  !p.hasNul && p.parts.all Text.isEncodable && Text.byteSize p.text ≤ sizeLimit

/-- Joined names are read name by name. -/
theorem codePoints_append_slash (x y : String) : Text.codePoints (x ++ "/" ++ y).toList =
    Text.codePoints x.toList ++ .char '/' :: Text.codePoints y.toList := by
  have hlist : (x ++ "/" ++ y).toList = x.toList ++ '/' :: y.toList := by simp
  have hslash : '/' ≠ CodePoint.mark := by decide
  rw [hlist, Text.codePoints_append_cons rfl, Text.codePoints_cons hslash]

/-- Slashes in front are read as slashes. -/
theorem codePoints_slashes_append (n : Nat) (y : String) :
    Text.codePoints (String.ofList (List.replicate n '/') ++ y).toList =
      List.replicate n (.char '/') ++ Text.codePoints y.toList := by
  have hslash : '/' ≠ CodePoint.mark := by decide
  rw [String.toList_append, String.toList_ofList]
  induction n with
  | zero => rfl
  | succ n ih =>
    rw [List.replicate_succ, List.cons_append, Text.codePoints_cons hslash, ih, List.replicate_succ,
      List.cons_append]

/-- A path that does not start at the root goes on from the first one. -/
theorem parts_join {p q : Path} (h : q.slashes = 0) : (p.join q).parts = p.parts ++ q.parts := by
  simp [join, h]

end Path

end ComponentBindings
