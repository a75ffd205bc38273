import ComponentBindings.Proofs.Blocks
import ComponentBindings.Proofs.Comments

/-!
# How functions are written

All functions are written alike, whether they belong to a resource or not: a comment, a marker, and
on the line below the identifier with the parameters and the result (`declared`). What differs is
the marker, and whether the runtime supplies a body.

The trait of a resource has one member more than the resource has methods, the operation that
disposes of a handle. No method is written like that one, whatever its name and its documentation
are, because the markers differ. So the members of a trait can be told apart by their texts: one is
that operation, and the others are the methods in order (`TypeDeclaration.writesResource`). And a
source file has the resources and the functions of its module in sections, and nothing beside them
but the types (`Module.writesSections`).
-/

namespace ComponentBindings

/-- What stands behind a signature whose body the runtime supplies. -/
def nativeBody : String := " = scala.scalajs.wit.native"

/-- **A function as it is written**: its comment, its marker and its signature, and behind it the
body. -/
def declared (docs : Option String) (mark : Marker) (name : String) (params : List Parameter)
    (result body : String) : String :=
  docComment docs ++ mark.render ++ "\n" ++ "def " ++ name ++ "(" ++
    ", ".intercalate (params.map fun p => p.name ++ ": " ++ p.type.text) ++ "): " ++ result ++ body

/-- The operation that disposes of a handle, as it is written. -/
def closeText : String :=
  "@scala.scalajs.wit.annotation.WitResourceDrop\ndef close(): Unit = scala.scalajs.wit.native"

/-- A method as it is written. -/
def Signature.asMethod (s : Signature) : String :=
  declared s.docs (.resourceMethod s.raw) s.name s.params s.result.text nativeBody

/-- A member of the companion of a resource as it is written. A constructor has the resource as its
result. -/
def CompanionMember.written (resource : String) : CompanionMember → String
  | .constructor params docs =>
    declared docs .resourceConstructor "apply" params resource nativeBody
  | .static s => declared s.docs (.resourceStatic s.raw) s.name s.params s.result.text nativeBody

/-- A function of its own as it is written. The guest implements those that are exported. -/
def FreeFunction.written (f : FreeFunction) : String :=
  let s := f.signature
  match f.direction with
  | .imported => declared s.docs (.importedFunction f.identity s.raw) s.name s.params s.result.text
      nativeBody ++ "\n"
  | .exported => declared s.docs (.exportedFunction f.identity s.raw) s.name s.params s.result.text
      "" ++ "\n"

section

variable (docs : Option String) (mark : Marker) (name : String) (params : List Parameter)
  (result : String)

/-- A signature behind its comment and its marker. -/
theorem append_renderSignature :
    docComment docs ++ mark.render ++ "\n" ++
      renderSignature name (params.map Parameter.texts) result =
        declared docs mark name params result "" := by
  unfold declared renderSignature renderParams
  rw [List.map_map, String.append_empty]
  simp only [← String.append_assoc]
  rfl

/-- A native signature behind its comment and its marker. -/
theorem append_renderNative :
    docComment docs ++ mark.render ++ "\n" ++
      renderNative name (params.map Parameter.texts) result =
        declared docs mark name params result nativeBody := by
  have hbody : declared docs mark name params result nativeBody =
      declared docs mark name params result "" ++ nativeBody := by
    rw [declared, declared, String.append_empty]
  have hnative : nativeBody = " = " ++ runtimePackage ++ ".native" := rfl
  rw [hbody, ← append_renderSignature, hnative, renderNative]
  simp only [← String.append_assoc]

end

/-- A method is written like every function. -/
theorem Signature.methodText_eq (s : Signature) : s.methodText = s.asMethod :=
  append_renderNative s.docs (.resourceMethod s.raw) s.name s.params s.result.text

/-- So are the members of a companion. -/
theorem CompanionMember.text_eq (resource : String) (m : CompanionMember) :
    m.text resource = m.written resource := by
  cases m with
  | constructor params docs =>
    exact append_renderNative docs .resourceConstructor "apply" params resource
  | static s =>
    exact append_renderNative s.docs (.resourceStatic s.raw) s.name s.params s.result.text

/-- So are functions of their own, and a line feed is behind them. -/
theorem FreeFunction.text_eq_written (f : FreeFunction) : f.text = f.written := by
  unfold text written
  cases f.direction with
  | imported =>
    exact congrArg (· ++ "\n") (append_renderNative f.signature.docs _ _ _ _)
  | exported =>
    exact congrArg (· ++ "\n") (append_renderSignature f.signature.docs _ _ _ _)

/-! ## The members of a trait -/

/-- A comment starts with a slash. -/
theorem docComment_eq_empty_or_slash (docs : Option String) :
    docComment docs = "" ∨ ∃ more, (docComment docs).toList = '/' :: more := by
  by_cases hblank : ∀ c ∈ (docs.getD "").toList, Text.isBlank c = true
  · exact .inl (BlockComment.docComment_of_isBlank hblank)
  · obtain ⟨body, heq, -⟩ := BlockComment.exists_docBody hblank
    exact .inr ⟨'*' :: (body ++ "*/\n").toList, by rw [heq, String.append_assoc]; simp⟩

/-- The marker of a method starts with its name. -/
theorem Marker.exists_render_resourceMethod (name : Argument) :
    ∃ rest, (resourceMethod name).render =
      "@scala.scalajs.wit.annotation.WitResourceMethod" ++ rest := by
  have hname : "@" ++ runtimePackage ++ ".annotation." ++ "WitResourceMethod" =
      "@scala.scalajs.wit.annotation.WitResourceMethod" := rfl
  rw [← hname]
  exact ⟨_, rfl⟩

/-- **No method is written like the operation that disposes of a handle.** -/
theorem Signature.methodText_ne_closeText (s : Signature) : s.methodText ≠ closeText := by
  obtain ⟨rest, hmark⟩ := Marker.exists_render_resourceMethod s.raw
  intro heq
  have hlist := congrArg String.toList heq
  rw [methodText, hmark, String.append_assoc, String.append_assoc, String.append_assoc,
    String.toList_append] at hlist
  rcases docComment_eq_empty_or_slash s.docs with hempty | ⟨more, hslash⟩
  · -- The markers part where the one says what a method is.
    rw [hempty, String.toList_empty, List.nil_append, String.toList_append] at hlist
    have hstart : "@scala.scalajs.wit.annotation.WitResourceMethod".toList <+: closeText.toList :=
      ⟨_, hlist⟩
    exact absurd hstart (by decide)
  · rw [hslash] at hlist
    exact absurd (List.cons.inj hlist).1 (by decide)

variable (methods : List Signature)

/-- There is one operation in a trait that disposes of a handle. -/
theorem count_traitMembers : (traitMembers methods).count closeText = 1 := by
  have hmethods : closeText ∉ methods.map Signature.methodText := by
    intro hmem
    obtain ⟨s, -, heq⟩ := List.mem_map.mp hmem
    exact s.methodText_ne_closeText heq
  have hdrop : dropText = closeText := rfl
  rw [traitMembers, List.count_append, List.count_eq_zero_of_not_mem hmethods, hdrop]
  rfl

/-- The other members are the methods. -/
theorem filter_traitMembers :
    (traitMembers methods).filter (· ≠ closeText) = methods.map Signature.asMethod := by
  have hdrop : [dropText].filter (· ≠ closeText) = [] := rfl
  have hmethods : ∀ text ∈ methods.map Signature.methodText, decide (text ≠ closeText) = true := by
    intro text hmem
    obtain ⟨s, -, rfl⟩ := List.mem_map.mp hmem
    exact decide_eq_true s.methodText_ne_closeText
  rw [traitMembers, List.filter_append, hdrop, List.append_nil, List.filter_eq_self.mpr hmethods]
  exact List.map_congr_left fun s _ => s.methodText_eq

/-! ## The text of a resource -/

/-- **A resource is written with its members**, some of them in its trait. -/
structure TypeDeclaration.WritesResource (d : TypeDeclaration) (identity : Argument) (raw : String)
    (methods : List Signature) (companion : List CompanionMember) (inTrait : List String) :
    Prop where
  /-- Between the braces of the trait are its members and nothing else, and between those of the
  companion are the functions that are no methods, in order. -/
  text : d.text = CodeStep.render [
    .lines (docComment d.docs), .line (Marker.importedResource identity raw).render,
    .line ("trait " ++ d.name ++ " \x7b"), .indented (inTrait.map .lines), .line "\x7d",
    .line ("object " ++ d.name ++ " \x7b"),
      .indented (companion.map fun m => .lines (m.written d.name)), .line "\x7d"]
  /-- One of the members of the trait is the operation that disposes of a handle. -/
  close : inTrait.count closeText = 1
  /-- The others are the methods, in order. -/
  methods : inTrait.filter (· ≠ closeText) = methods.map Signature.asMethod

/-- **The text of a resource** has the members of the declaration. -/
theorem TypeDeclaration.writesResource {d : TypeDeclaration} {identity : Argument} {raw : String}
    {methods : List Signature} {companion : List CompanionMember}
    (h : d.body = .resource identity raw methods companion) :
    d.WritesResource identity raw methods companion (traitMembers methods) where
  text := by
    have hwritten : (fun m : CompanionMember => CodeStep.lines (m.text d.name)) =
        fun m => .lines (m.written d.name) :=
      funext fun m => congrArg CodeStep.lines (m.text_eq d.name)
    unfold TypeDeclaration.text
    simp only [h, hwritten]
    rfl
  close := count_traitMembers methods
  methods := filter_traitMembers methods

/-! ## The text of a module -/

/-- The lines of a section under its title, unless there is nothing in it. -/
def titled (title : String) (texts : List String) : List CodeStep :=
  if texts.isEmpty then []
  else [.line "", .line title] ++ texts.flatMap fun text => [.line "", .lines text]

/-- **A source file is written with what the module declares**, in sections. -/
structure Module.WritesSections (m : Module) (header : Bool) : Prop where
  /-- In the section of the resources are the resources, in order. -/
  resources : (m.sourceFile header).sections .resources = m.resources.map TypeDeclaration.text
  /-- In the section of the functions are the functions, in order. -/
  functions : (m.sourceFile header).sections .functions = m.functions.map FreeFunction.written
  /-- Between the braces of the file are its sections and nothing else, and in front of them stands
  what is said of the module as a whole. -/
  text : (m.sourceFile header).text = CodeStep.render (
    (if header then [.line "// Generated by wit2scala. DO NOT EDIT.", .line ""] else []) ++
    [.line ("package " ++ m.location.package), .line "", .lines (docComment m.docs),
      .lines m.location.opener,
      .indented (titled "// Type definitions" (m.types.map TypeDeclaration.text) ++
        titled "// Resources" (m.resources.map TypeDeclaration.text) ++
        titled "// Functions" (m.functions.map FreeFunction.written)), .line "\x7d"]) ++ "\n"

/-- **The source file of a module** has what the module declares. -/
theorem Module.writesSections (m : Module) (header : Bool) : m.WritesSections header := by
  have hwritten : FreeFunction.text = FreeFunction.written :=
    funext FreeFunction.text_eq_written
  have hsections : Section.all.flatMap (m.sourceFile header).sectionSteps =
      titled "// Type definitions" (m.types.map TypeDeclaration.text) ++
        titled "// Resources" (m.resources.map TypeDeclaration.text) ++
        titled "// Functions" (m.functions.map FreeFunction.written) := by
    rw [← hwritten]
    simp only [Section.all, List.flatMap_cons, List.flatMap_nil, List.append_nil,
      ← List.append_assoc]
    rfl
  refine ⟨rfl, congrArg (m.functions.map ·) hwritten, ?_⟩
  rw [← hsections]
  rfl

end ComponentBindings
