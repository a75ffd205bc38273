import ComponentBindings.Document.Display

/-!
# What can go wrong

A run ends with bindings or with one `Fault`, and a fault is a cause: which
world was missing, which two names met in which scope, which value of the
document had the wrong form and where. The wording is in one place. Every
fault has a `Diagnostic`, that is a kind, which decides the exit status of
the program, a message, and the entity that the message is about.
-/

namespace ComponentBindings

/-- The kinds of failure that a caller can tell apart. -/
inductive Diagnostic.Kind where
  /-- Several worlds and no choice among them. -/
  | ambiguousWorld
  /-- A world that does not exist. -/
  | unknownWorld
  /-- A feature that the runtime cannot express. -/
  | unsupportedFeature
  /-- Two names that become one identifier. -/
  | nameCollision
  /-- More flags than the widest representation holds. -/
  | tooManyFlags
  /-- An id that points nowhere. -/
  | danglingReference
  /-- A document that does not follow the schema. -/
  | invalidDocument
  /-- Any other failure. -/
  | general
  deriving DecidableEq, Repr

/-- The exit status of a run that fails in a given way. -/
def Diagnostic.Kind.exitCode : Diagnostic.Kind → Nat
  | .general => 1
  | .ambiguousWorld => 2
  | .unknownWorld => 3
  | .unsupportedFeature => 4
  | .nameCollision => 5
  | .tooManyFlags => 6
  | .danglingReference => 7
  | .invalidDocument => 8

/-- **What a failed run reports.** -/
structure Diagnostic where
  /-- The kind of failure. -/
  kind : Diagnostic.Kind
  /-- The description of the problem. -/
  message : String
  /-- The world, interface, type or scope that the problem is in. -/
  entity : Option String := none
  deriving DecidableEq, Repr

/-- The report as one line: the message, and where there is a name to give,
the entity behind it. -/
def Diagnostic.text (d : Diagnostic) : String :=
  match d.entity with
  | some entity => if entity = "" then d.message else s!"{d.message} (at '{entity}')"
  | none => d.message

/-- The lists of a graph that ids point into. -/
inductive Arena where
  /-- The packages. -/
  | packages
  /-- The interfaces. -/
  | interfaces
  /-- The type definitions. -/
  | types
  /-- The worlds. -/
  | worlds
  deriving DecidableEq, Repr

/-- What one entry of an arena is called. -/
def Arena.entry : Arena → String
  | .packages => "package"
  | .interfaces => "interface"
  | .types => "type"
  | .worlds => "world"

/-- **A departure from the document schema**, at a value of the document. -/
inductive Malformation where
  /-- The document itself is not an object. -/
  | documentNotObject
  /-- A value is not an object. -/
  | notObject
  /-- A value that is to hold the list `key` is not an object. -/
  | notObjectWith (key : String) (got : Document)
  /-- The member `key` is not a list. -/
  | notList (key : String)
  /-- The member `key` is not an object. -/
  | memberNotObject (key : String)
  /-- The member `key` is not a text, or is empty. -/
  | missingText (key : String)
  /-- A value is not an id. -/
  | notId (got : Document)
  /-- A documentation comment is not a text. -/
  | docsNotText
  /-- A type is named that is no primitive. -/
  | unknownType (name : String)
  /-- A value is not an object with exactly one member. -/
  | notSingleMember (got : Document)
  /-- The name of a package names an interface too. -/
  | packageNamesInterface
  /-- A package name does not have the form of one. -/
  | packageName (text : String)
  /-- A function is attached in an unknown way. -/
  | unknownFunctionKind (tag : Scalar)
  /-- The name of an interface is not a text. -/
  | interfaceNameNotText
  /-- The name of a type is not a text. -/
  | typeNameNotText
  /-- A type has an owner of an unknown sort. -/
  | unknownOwner (tag : Scalar)
  /-- A handle is neither owned nor borrowed. -/
  | unknownHandle (tag : Scalar)
  /-- The arms of a result are not in an object. -/
  | resultNotObject
  /-- A type is of an unknown kind. -/
  | unknownTypeKind (tag : Scalar)
  /-- A world lists an item of an unknown kind. -/
  | unknownWorldItem (tag : Scalar)
  /-- An id that is to point at a resource points at another type. -/
  | notResource (id : Int)

/-- The wording of a departure from the schema. -/
def Malformation.message : Malformation → String
  | documentNotObject => "Document must be a mapping"
  | notObject => "Expected a mapping"
  | notObjectWith key got => s!"Expected a mapping with '{key}', got {got.display}"
  | notList key => s!"'{key}' must be a list"
  | memberNotObject key => s!"'{key}' must be a mapping"
  | missingText key => s!"Missing or invalid '{key}'"
  | notId got => s!"Expected an id, got {got.display}"
  | docsNotText => "'docs' must be a string"
  | unknownType name => s!"Unknown type '{name}'"
  | notSingleMember got => s!"Expected a single-key mapping, got {got.display}"
  | packageNamesInterface => "Package name must not name an interface"
  | packageName text => s!"Invalid package name '{text}'"
  | unknownFunctionKind tag => "Unknown function kind '" ++ tag.shown ++ "'"
  | interfaceNameNotText => "Interface name must be a string"
  | typeNameNotText => "Type name must be a string"
  | unknownOwner tag => "Unknown type owner '" ++ tag.shown ++ "'"
  | unknownHandle tag => "Unknown handle kind '" ++ tag.shown ++ "'"
  | resultNotObject => "Result must be a mapping"
  | unknownTypeKind tag => "Unknown type kind '" ++ tag.shown ++ "'"
  | unknownWorldItem tag => "Unknown world item '" ++ tag.shown ++ "'"
  | notResource id => s!"Type {id} is not a resource"

/-- Whether the wording of a departure from the schema can be given. -/
def Malformation.isShowable : Malformation → Bool
  | notObjectWith _ got | notId got | notSingleMember got => got.isShowable
  | unknownFunctionKind tag | unknownOwner tag | unknownHandle tag | unknownTypeKind tag
  | unknownWorldItem tag => tag.isShowable
  | notResource id => (Scalar.int id).isShowable
  | _ => true

/-- **The cause of a failure.** -/
inductive Fault where
  /-- The text is not a document at all. -/
  | unreadable
  /-- A scalar stands for nothing. -/
  | unrepresentable (what : Unrepresentable)
  /-- A list of parameters or results is a scalar that has no parts. -/
  | notEnumerable
  /-- A value of the document does not follow the schema. -/
  | malformed (what : Malformation) (entity : Option String)
  /-- An id is outside its arena. -/
  | dangling (arena : Arena) (id : Int) (entity : Option String)
  /-- No world was chosen and there are several. -/
  | ambiguousWorld (worlds : List String)
  /-- The chosen world does not exist, or none was chosen and there is none. -/
  | unknownWorld (name : Option String) (available : List String)
  /-- A type is of a kind that has no form in the generated code. -/
  | unsupportedKind (kind : String) (entity : String)
  /-- A resource is to be exported. -/
  | exportedResource (identity : String) (name : Option String)
  /-- The name or the identity of an interface is another scalar than a text. -/
  | notText (value : Scalar)
  /-- Two names become one identifier in one scope. -/
  | nameCollision (scope identifier first second : String)
  /-- A flags type has more than sixty-four flags. -/
  | tooManyFlags (name : String) (count : Int)
  /-- A name has no word to make an identifier from. -/
  | noIdentifier (raw : String)
  /-- An interface has neither a name nor a key in the world. -/
  | unnamedInterface (id : Int)
  /-- A type that is to be referred to by name has none. -/
  | unnamedType (id : Int)
  /-- A type without a name contains itself. -/
  | selfReference (id : Int)
  /-- A type without a name is of a kind that has to be declared. -/
  | unnamedDeclaration (kind : String) (id : Int)
  /-- A type without a name is to be declared. -/
  | undeclarable (id : Int)
  /-- A type that is no composite is to be written out. -/
  | notComposite (id : Int)
  /-- A declaration is added to a source file that has been rendered. -/
  | alreadyRendered (path : String)

/-- **What a fault reports.** -/
def Fault.diagnostic : Fault → Diagnostic
  | unreadable => ⟨.invalidDocument, "Cannot decode document", none⟩
  | unrepresentable what => ⟨.general, what.message, none⟩
  | notEnumerable => ⟨.general, "Expected a list", none⟩
  | malformed what entity => ⟨.invalidDocument, what.message, entity⟩
  | dangling arena id entity =>
    ⟨.danglingReference, s!"Reference to unknown {arena.entry} id {id}", entity⟩
  | ambiguousWorld worlds =>
    ⟨.ambiguousWorld, "Multiple worlds found (" ++ ", ".intercalate worlds ++
      "); select one explicitly with --world", none⟩
  | unknownWorld none _ => ⟨.unknownWorld, "The document does not define any world", none⟩
  | unknownWorld (some name) available =>
    ⟨.unknownWorld, s!"Unknown world '{name}'" ++
      (if available.isEmpty then ""
        else "; available worlds: " ++ ", ".intercalate available), name⟩
  | unsupportedKind kind entity =>
    ⟨.unsupportedFeature, s!"{kind} types are not supported", entity⟩
  | exportedResource identity name =>
    ⟨.unsupportedFeature, "Resources cannot be exported by Scala components",
      identity ++ "#" ++ name.getD "None"⟩
  | notText value => ⟨.general, "Expected a text, got " ++ value.display, none⟩
  | nameCollision scope identifier first second =>
    ⟨.nameCollision, s!"Identifiers '{first}' and '{second}' both map to '{identifier}'", scope⟩
  | tooManyFlags name count =>
    ⟨.tooManyFlags, s!"Flags type declares {count} flags, at most 64 are supported", name⟩
  | noIdentifier raw => ⟨.invalidDocument, s!"Invalid identifier '{raw}'", none⟩
  | unnamedInterface id => ⟨.invalidDocument, s!"Interface {id} has no name", none⟩
  | unnamedType id => ⟨.invalidDocument, s!"Type {id} has no name", none⟩
  | selfReference id => ⟨.invalidDocument, s!"Anonymous type {id} refers to itself", none⟩
  | unnamedDeclaration kind id => ⟨.invalidDocument, s!"Anonymous {kind} type {id}", none⟩
  | undeclarable id => ⟨.invalidDocument, s!"Cannot declare anonymous type {id}", none⟩
  | notComposite id => ⟨.invalidDocument, s!"Cannot render type {id}", none⟩
  | alreadyRendered path => ⟨.general, "Cannot modify a rendered module", path⟩

/-- A fault in the document as it is reported: one whose wording has an integer with too many
digits to be shown is that fault instead. -/
def Fault.reported : Fault → Fault
  | malformed what entity =>
    if what.isShowable then malformed what entity else unrepresentable .tooLongToShow
  | dangling arena id entity =>
    if (Scalar.int id).isShowable then dangling arena id entity
    else unrepresentable .tooLongToShow
  | other => other

/-- The exit status of a run that ends with a fault. -/
def Fault.exitCode (f : Fault) : Nat := f.diagnostic.kind.exitCode

end ComponentBindings
