import ComponentBindings.Text.Blank
import ComponentBindings.Text.Lines

/-!
# Documentation comments

The documentation of an item becomes one block comment in front of its
declaration. White space around the documentation is dropped, its first line
stands behind the opening mark, and every later line behind a star.
-/

namespace ComponentBindings

/-- A later line of a documentation comment. -/
def docLine (line : String) : String :=
  if (Text.strip line.toList).isEmpty then " *" else " *  " ++ line

/-- **The comment of a documentation text**, which ends with a line feed.
Documentation that is absent or blank has no comment. -/
def docComment (docs : Option String) : String :=
  match Text.splitLines (Text.stripped (docs.getD "")) with
  | [] => ""
  | first :: rest =>
    "\n".intercalate (("/** " ++ first) :: rest.map docLine ++ [" */"]) ++ "\n"

end ComponentBindings
