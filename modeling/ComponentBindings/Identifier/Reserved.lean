import ComponentBindings.Identifier.Convention

/-!
# Reserved words

A word that the target language reserves, and the name of a member that
every object has, can be an identifier only between backticks. An identifier
is escaped when it is such a word and stands as it is otherwise, and
`unescape` takes the backticks off again.
-/

namespace ComponentBindings

/-- The words that are written between backticks. -/
def reservedWords : List String :=
  [ -- keywords
    "abstract", "case", "catch", "class", "def", "do", "else", "extends", "false", "final",
    "finally", "for", "forSome", "if", "implicit", "import", "lazy", "macro", "match", "new",
    "null", "object", "override", "package", "private", "protected", "return", "sealed", "super",
    "this", "throw", "trait", "true", "try", "type", "val", "var", "while", "with", "yield",
    "enum", "export", "given", "then",
    -- words that are keywords in some places
    "as", "derives", "end", "extension", "infix", "inline", "opaque", "open", "transparent",
    "using",
    -- symbols
    "_", ":", "=", "=>", "<-", "<:", "<%", ">:", "#", "@",
    -- members of every object
    "equals", "hashCode", "toString", "wait", "notify", "notifyAll", "clone", "finalize",
    "getClass"]

/-- An identifier between backticks if it is reserved. -/
def escape (reserved : List String) (identifier : String) : String :=
  if reserved.contains identifier then "\x60" ++ identifier ++ "\x60" else identifier

/-- An identifier without the backticks around it. A single backtick is no
pair of them. -/
def unescape (identifier : String) : String :=
  match identifier.toList with
  | '\x60' :: rest =>
    if rest.getLast? = some '\x60' then String.ofList rest.dropLast else identifier
  | _ => identifier

/-- **The identifier of a name**: the name written by a convention, between
backticks if that is a reserved word. -/
def identifierOf (c : Convention) (raw : String) (reserved : List String := reservedWords) :
    Except Fault String :=
  escape reserved <$> c.convert raw

end ComponentBindings
