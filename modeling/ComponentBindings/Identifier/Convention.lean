import ComponentBindings.Fault
import ComponentBindings.Text.Blank
import ComponentBindings.Text.Casing
import ComponentBindings.Text.Pieces

/-!
# Words and naming conventions

The names of an interface definition are words in any letter case that are
joined by hyphens, such as `file-perms` or `HTTP-client`; a percent sign in
front of a name tells it from a keyword and is no part of it. A name becomes
an identifier by one of three conventions, all of which start from its words
in lower case: types and cases run the words together with capitals
(`FilePerms`), members do the same from the second word on (`filePerms`), and
modules join the words with underscores (`file_perms`).
-/

namespace ComponentBindings

/-- A character that separates two words of a name. -/
def isWordSeparator (c : Char) : Bool := c = '-' || c = '_' || Text.isBlank c

/-- The words of a name, in lower case. -/
def wordsOf (raw : List Char) : List (List Char) :=
  ((Text.pieces isWordSeparator (raw.dropWhile (· = '%'))).filter (!·.isEmpty)).map Text.lower

/-- **The conventions for identifiers.** -/
inductive Convention where
  /-- Types and cases. -/
  | type
  /-- Fields, functions, parameters and flags. -/
  | member
  /-- Modules and the packages around them. -/
  | module
  deriving DecidableEq, Repr

/-- The identifier that words are joined to. -/
def Convention.join : Convention → List (List Char) → List Char
  | _, [] => []
  | type, words => words.flatMap Text.capitalize
  | member, first :: rest => first ++ rest.flatMap Text.capitalize
  | module, words => ['_'].intercalate words

/-- The words of a name as texts; a name without words is a fault. -/
def splitWords (raw : String) : Except Fault (List String) :=
  match wordsOf raw.toList with
  | [] => .error (.noIdentifier raw)
  | words => .ok (words.map String.ofList)

/-- A name written by a convention, before keywords are escaped. -/
def Convention.convert (c : Convention) (raw : String) : Except Fault String :=
  match wordsOf raw.toList with
  | [] => .error (.noIdentifier raw)
  | words => .ok (String.ofList (c.join words))

end ComponentBindings
