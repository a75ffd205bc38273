/-!
# Markers and signatures

Generated code carries no marshalling. It declares what crosses the boundary
of the component and puts a marker on each declaration, an annotation that
the runtime binds it by; an imported function has a native body:

```text
@scala.scalajs.wit.annotation.WitImport("wasi:io/streams@0.2.0", "read")
def read(len: Long): Array[Byte] = scala.scalajs.wit.native
```

A marker is a name and arguments, each a text in double quotes, a number or a
truth value. Inside the quotes a backslash and a double quote have a backslash
in front, and nothing else is escaped.
-/

namespace ComponentBindings

/-- The package of the runtime. -/
def runtimePackage : String := "scala.scalajs.wit"

/-- An argument of a marker. -/
inductive Argument where
  /-- A text. -/
  | text (value : String)
  /-- A number. -/
  | number (value : Int)
  /-- A truth value. -/
  | truth (value : Bool)
  deriving DecidableEq, Repr

instance : Coe String Argument := ⟨.text⟩

/-- A text in which a character is replaced wherever it stands. -/
def replaceChar (c : Char) (form : List Char) (cs : List Char) : List Char :=
  cs.flatMap fun d => if d = c then form else [d]

/-- A text inside the quotes of an argument: every backslash is written twice, and then every double
quote has a backslash in front. -/
def escapedText (cs : List Char) : List Char :=
  replaceChar '"' ['\\', '"'] (replaceChar '\\' ['\\', '\\'] cs)

/-- An argument as it is written. -/
def Argument.render : Argument → String
  | .text value => String.ofList ('"' :: escapedText value.toList ++ ['"'])
  | .number value => toString value
  | .truth value => if value then "True" else "False"

/-- A character inside the quotes of an argument. -/
def escapeArgument (c : Char) : List Char := if c = '\\' || c = '"' then ['\\', c] else [c]

/-- **The second replacement meets nothing that the first one has written**, so that both together
are one walk over the text. -/
theorem escapedText_eq (cs : List Char) : escapedText cs = cs.flatMap escapeArgument := by
  unfold escapedText replaceChar
  rw [List.flatMap_assoc]
  refine congrArg (cs.flatMap ·) (funext fun c => ?_)
  by_cases hslash : c = '\\'
  · subst hslash
    rfl
  · by_cases hquote : c = '"'
    · subst hquote
      rfl
    · simp [escapeArgument, hslash, hquote]

/-- **A marker**: an annotation that the runtime knows. -/
structure Marker where
  /-- Its name in the package of annotations. -/
  name : String
  /-- The arguments, in order. -/
  arguments : List Argument := []
  deriving DecidableEq, Repr

namespace Marker

/-- **A marker as it is written.** Without arguments it has no
parentheses. -/
def render (a : Marker) : String :=
  "@" ++ runtimePackage ++ ".annotation." ++ a.name ++
    (if a.arguments.isEmpty then ""
      else "(" ++ ", ".intercalate (a.arguments.map Argument.render) ++ ")")

/-- The mark of an imported function. -/
def importedFunction (identity name : Argument) : Marker := ⟨"WitImport", [identity, name]⟩

/-- The mark of an exported function. -/
def exportedFunction (identity name : Argument) : Marker := ⟨"WitExport", [identity, name]⟩

/-- The mark of a record. -/
def record : Marker := ⟨"WitRecord", []⟩

/-- The mark of a variant or an enumeration. -/
def variant : Marker := ⟨"WitVariant", []⟩

/-- The mark of a flags type with a given number of flags. -/
def flags (count : Argument) : Marker := ⟨"WitFlags", [count]⟩

/-- The mark of an imported resource. -/
def importedResource (identity name : Argument) : Marker :=
  ⟨"WitResourceImport", [identity, name]⟩

/-- The mark of a constructor of a resource. -/
def resourceConstructor : Marker := ⟨"WitResourceConstructor", []⟩

/-- The mark of a method of a resource. -/
def resourceMethod (name : Argument) : Marker := ⟨"WitResourceMethod", [name]⟩

/-- The mark of a static function of a resource. -/
def resourceStatic (name : Argument) : Marker := ⟨"WitResourceStaticMethod", [name]⟩

/-- The mark of the operation that disposes of a handle. -/
def resourceDrop : Marker := ⟨"WitResourceDrop", []⟩

/-- The mark of the trait of an exported interface. -/
def exportedInterface : Marker := ⟨"WitExportInterface", []⟩

end Marker

/-- Parameters as they are written between the parentheses of a signature. -/
def renderParams (params : List (String × String)) : String :=
  ", ".intercalate (params.map fun (name, type) => name ++ ": " ++ type)

/-- A signature without a body. -/
def renderSignature (name : String) (params : List (String × String)) (result : String) : String :=
  "def " ++ name ++ "(" ++ renderParams params ++ "): " ++ result

/-- A signature whose body the runtime supplies. -/
def renderNative (name : String) (params : List (String × String)) (result : String) : String :=
  renderSignature name params result ++ " = " ++ runtimePackage ++ ".native"

/-- An imported function: its comment, its mark and its native signature. -/
def renderImported (identity raw : Argument) (name : String) (params : List (String × String))
    (result : String) (comment : String := "") : String :=
  comment ++ (Marker.importedFunction identity raw).render ++ "\n" ++
    renderNative name params result ++ "\n"

/-- An exported function: its comment, its mark and the signature that the
guest implements. -/
def renderExported (identity raw : Argument) (name : String) (params : List (String × String))
    (result : String) (comment : String := "") : String :=
  comment ++ (Marker.exportedFunction identity raw).render ++ "\n" ++
    renderSignature name params result ++ "\n"

end ComponentBindings
