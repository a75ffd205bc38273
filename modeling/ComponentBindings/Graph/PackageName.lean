import ComponentBindings.Fault
import ComponentBindings.Text.Blank

/-!
# Package names

A package is identified by `namespace:name@version`, and an interface of the
package by `namespace:name/interface@version`. The version is optional and
is any text without white space; the other parts are texts without the
three marks `:`, `/` and `@`. `PackageName.identity` writes an identity and
`PackageName.parse` reads one, white space around it aside.
-/

namespace ComponentBindings

/-- The identity of a package. -/
structure PackageName where
  /-- The namespace. -/
  ns : String
  /-- The name in the namespace. -/
  name : String
  /-- The version, if the package has one. -/
  version : Option String
  deriving DecidableEq, Repr

namespace PackageName

/-- The identity of an interface of the package, or of the package itself.
An empty text for the interface or the version counts as none. -/
def identity (p : PackageName) (interface : Option String := none) : String :=
  let part (mark : String) : Option String → String
    | some text => if text = "" then "" else mark ++ text
    | none => ""
  p.ns ++ ":" ++ p.name ++ part "/" interface ++ part "@" p.version

/-- A character that separates the parts of an identity. -/
def isMark (c : Char) : Bool := c = ':' || c = '/' || c = '@'

/-- A part of an identity at the front of a text, as long as it can be, and
the rest. There is no empty part. -/
def takePart (cs : List Char) : Option (String × List Char) :=
  match cs.takeWhile (fun c => !isMark c) with
  | [] => none
  | part => some (String.ofList part, cs.dropWhile fun c => !isMark c)

/-- The version that ends an identity, with its mark, or nothing. -/
def takeVersion : List Char → Option (Option String)
  | [] => some none
  | '@' :: version =>
    if version.isEmpty || version.any Text.isBlank then none
    else some (some (String.ofList version))
  | _ => none

/-- The package name and interface that a text without white space around it
is the identity of. -/
def parse? (cs : List Char) : Option (PackageName × Option String) := do
  let (ns, rest) ← takePart cs
  let ':' :: rest := rest | none
  let (name, rest) ← takePart rest
  match rest with
  | '/' :: rest =>
    let (interface, rest) ← takePart rest
    let version ← takeVersion rest
    pure (⟨ns, name, version⟩, some interface)
  | rest =>
    let version ← takeVersion rest
    pure (⟨ns, name, version⟩, none)

/-- The package name and interface that a text is the identity of. -/
def parse (text : String) : Except Fault (PackageName × Option String) :=
  match parse? (Text.strip text.toList) with
  | some parsed => .ok parsed
  | none => .error (.malformed (.packageName text) none)

end PackageName

instance : ToString PackageName := ⟨fun p => p.identity⟩

end ComponentBindings
