import ComponentBindings.Proofs.Readers

/-!
# What a document is refused for

The readers fail with what a document admits, and leave ids that can be shown
wherever the document can. So does the check that these ids point somewhere,
and with it the whole of reading (`Graph.reads_ofObject`).

`Graph.refusals_ofDocument` says what this comes to. A document that is not
refused as malformed, nor for an id that points nowhere, has a function whose
parameters or results cannot be walked, or an integer that cannot be shown.
And a document with such a function is never read, wherever the function is,
since every function of a graph has been read from the document
(`Document.HasFunction.exists_read`).
-/

namespace ComponentBindings

open Document (Reads Shows ShowsId ShowsRef ShowsAll member member?)

variable {document value : Document} {members : List (Scalar × Document)} {context key : String}

/-! ## The check of the ids -/

namespace Graph

variable {g : Graph}

/-- An id that is shown is checked. -/
theorem reads_checkEntry {α : Type} {arena : Arena} {entries : List α} {id : Int}
    (h : document.ShowsId id) :
    document.Reads (fun _ => True) (checkEntry arena entries id context) := by
  unfold checkEntry
  split
  · trivial
  · exact h

/-- A type reference is checked. -/
theorem reads_checkRef {ref : TypeRef} (h : document.ShowsRef ref) :
    document.Reads (fun _ => True) (g.checkRef context ref) := by
  cases ref with
  | primitive _ => trivial
  | defined id => exact reads_checkEntry (h id rfl)

/-- The id of a resource is checked. -/
theorem reads_checkResource {id : Int} (h : document.ShowsId id) :
    document.Reads (fun _ => True) (g.checkResource context id) := by
  unfold checkResource
  split
  · exact h
  · split
    · trivial
    · exact h

/-- A function is checked. -/
theorem reads_checkFunction {f : Function} (h : f.ShownIn document) :
    document.Reads (fun _ => True) (g.checkFunction context f) := by
  refine (EndsIn.forM fun p hp => reads_checkRef (h.params p hp)).bind fun _ _ => ?_
  refine (EndsIn.forM fun ref href => reads_checkRef (h.results ref href)).bind fun _ _ => ?_
  exact EndsIn.optionForM fun id hid => reads_checkResource (h.attachment id hid)

/-- A package is checked. -/
theorem reads_checkPackage {p : Package} (h : p.ShownIn document) :
    document.Reads (fun _ => True) (g.checkPackage p) := by
  refine (EndsIn.forM fun entry hentry => reads_checkEntry (h.interfaces entry hentry)).bind
    fun _ _ => ?_
  exact EndsIn.forM fun entry hentry => reads_checkEntry (h.worlds entry hentry)

/-- An interface is checked. -/
theorem reads_checkInterface {i : Interface} (h : i.ShownIn document) :
    document.Reads (fun _ => True) (g.checkInterface i) := by
  refine (EndsIn.optionForM fun id hid => reads_checkEntry (h.package id hid)).bind fun _ _ => ?_
  refine (EndsIn.forM fun entry hentry => reads_checkEntry (h.types entry hentry)).bind
    fun _ _ => ?_
  exact EndsIn.forM fun entry hentry => reads_checkFunction (h.functions entry hentry)

/-- A type is checked. -/
theorem reads_checkTypeDef {t : TypeDef} (h : t.ShownIn document) :
    document.Reads (fun _ => True) (g.checkTypeDef t) := by
  refine (EndsIn.optionForM fun owner howner => ?_).bind fun _ _ => ?_
  · cases owner with
    | interface id => exact reads_checkEntry (h.owner id (.inl howner))
    | world id => exact reads_checkEntry (h.owner id (.inr howner))
  refine (EndsIn.forM fun ref href => reads_checkRef (h.kind.parts ref href)).bind fun _ _ => ?_
  split
  · next id borrowed hkind => exact reads_checkResource (h.kind.handle id borrowed hkind)
  · trivial

/-- A world is checked. -/
theorem reads_checkWorld {w : World} (h : w.ShownIn document) :
    document.Reads (fun _ => True) (g.checkWorld w) := by
  refine (EndsIn.optionForM fun id hid => reads_checkEntry (h.package id hid)).bind fun _ _ => ?_
  refine EndsIn.forM fun ⟨key, item⟩ hitem => ?_
  have hshown := h.items _ hitem
  cases item with
  | interface id => exact reads_checkEntry hshown
  | type id => exact reads_checkEntry hshown
  | function f => exact reads_checkFunction hshown

/-! ## Documents -/

/-- The entries of a list of a document are read. -/
theorem reads_entries {α : Type} {read : Nat → Document → Except Fault α} {Q : α → Prop}
    (hread : ∀ k value items, document.listMember key = .ok items → value ∈ items →
      document.Shows value → document.Reads Q (read k value)) :
    document.Reads (fun xs => ∀ x ∈ xs, Q x) (document.entries key read) := by
  refine (Document.reads_listMember fun h => h).bind fun items ⟨hitems, hshown⟩ => ?_
  refine EndsIn.mapM fun ⟨value, k⟩ hvalue => ?_
  have hmem := List.fst_mem_of_mem_zipIdx hvalue
  exact hread k value items hitems hmem (hshown value hmem)

/-- **An object is read, or refused for what it admits.** -/
theorem reads_ofObject (document : Document) :
    document.Reads (fun _ => True) (ofObject document) := by
  refine (reads_entries fun _ _ _ _ _ h => Package.reads_ofDocument h).bind
    fun packages hpackages => ?_
  refine (reads_entries fun _ _ _ hlist hmem h =>
    Interface.reads_ofDocument hlist hmem h).bind fun interfaces hinterfaces => ?_
  refine (reads_entries fun _ _ _ _ _ h => TypeDef.reads_ofDocument h).bind fun types htypes => ?_
  refine (reads_entries fun _ _ _ hlist hmem h =>
    World.reads_ofDocument hlist hmem h).bind fun worlds hworlds => ?_
  refine EndsIn.bind (Q := fun _ => True) ?_ fun _ _ => trivial
  refine (EndsIn.forM fun p hp => reads_checkPackage (hpackages p hp)).bind fun _ _ => ?_
  refine (EndsIn.forM fun i hi => reads_checkInterface (hinterfaces i hi)).bind fun _ _ => ?_
  refine (EndsIn.forM fun t ht => reads_checkTypeDef (htypes t ht)).bind fun _ _ => ?_
  exact EndsIn.forM fun w hw => reads_checkWorld (hworlds w hw)

end Graph

/-! ## Documents that are graphs -/

/-- The values in a list of a document have been read. -/
theorem Document.exists_read_of_mem {α : Type} {read : Nat → Document → Except Fault α}
    {entries : List α} {items : List Document} (h : document.entries key read = .ok entries)
    (hlist : document.listMember key = .ok items) (hmem : value ∈ items) :
    ∃ k x, read k value = .ok x := by
  obtain ⟨values, hvalues, hread⟩ := except_bind_eq_ok.mp h
  obtain rfl := Except.ok.inj (hlist.symm.trans hvalues)
  obtain ⟨k, hk, rfl⟩ := List.getElem_of_mem hmem
  obtain ⟨x, -, hx⟩ := exists_of_mem_left (forall₂_of_mapM_eq_ok hread)
    (List.mk_mem_zipIdx_iff_getElem?.mpr (List.getElem?_eq_getElem hk))
  exact ⟨k, x, hx⟩

/-- A function that has been read can be walked. -/
theorem Function.isUnwalkable_of_ofDocument {f : Function}
    (h : Function.ofDocument context value = .ok f) : value.isUnwalkable = false := by
  simp only [Function.ofDocument, except_bind_eq_ok, except_pure_eq_ok] at h
  obtain ⟨ms, hms, _, -, _, -, _, hparams, _, -, results, hresults, _, -, -⟩ := h
  have hbare : value.bare = .object ms := by
    unfold Document.members at hms
    split at hms
    · next heq => rw [heq, Except.ok.inj hms]
    · cases hms
  have hwalkParams := Document.isWalkable_iff.mpr ⟨_, hparams⟩
  rw [Document.isUnwalkable, hbare]
  cases hresult : member? ms "result" with
  | some _ => simp [hwalkParams, hresult]
  | none =>
    rw [Function.resultsOf, hresult] at hresults
    obtain ⟨_, hparts, -⟩ := except_bind_eq_ok.mp hresults
    simp [hwalkParams, hresult, Document.isWalkable_iff.mpr ⟨_, hparts⟩]

/-- What is found in a member of an object is read from there. -/
theorem Document.objectMember_eq_ok {entries : List (Scalar × Document)}
    (h : (member members key).bare = .object entries) :
    objectMember members key context = .ok entries := by
  rw [objectMember, h]

/-- An entry of an object that has been read entry by entry. -/
theorem exists_of_mapM_objectMember {α : Type} {read : Scalar × Document → Except Fault α}
    {xs : List α} {entries : List (Scalar × Document)} {entry : Scalar × Document}
    (h : (Document.objectMember members key context >>= fun entries => entries.mapM read) = .ok xs)
    (hfound : (member members key).bare = .object entries) (hmem : entry ∈ entries) :
    ∃ x, read entry = .ok x := by
  obtain ⟨_, hentries, hread⟩ := except_bind_eq_ok.mp h
  obtain rfl := Except.ok.inj (hentries.symm.trans (Document.objectMember_eq_ok hfound))
  obtain ⟨x, -, hx⟩ := exists_of_mem_left (forall₂_of_mapM_eq_ok hread) hmem
  exact ⟨x, hx⟩

/-- A value with members is read member by member. -/
theorem Document.members_eq_of_bare {ms : List (Scalar × Document)}
    (hbare : value.bare = .object members) (h : value.members context = .ok ms) : ms = members := by
  rw [Document.members, hbare] at h
  exact (Except.ok.inj h).symm

/-- **Every function of a document has been read**, if the document has been. -/
theorem Document.HasFunction.exists_read {f : Document} (hf : document.HasFunction f) {g : Graph}
    (h : Graph.ofObject document = .ok g) :
    ∃ context function, Function.ofDocument context f = .ok function := by
  simp only [Graph.ofObject, except_bind_eq_ok, except_pure_eq_ok] at h
  obtain ⟨_, -, interfaces, hinterfaces, _, -, worlds, hworlds, -⟩ := h
  cases hf with
  | interface hlist hmem hbare hfound hf =>
    obtain ⟨_, _, hread⟩ := Document.exists_read_of_mem hinterfaces hlist hmem
    simp only [Interface.ofDocument, except_bind_eq_ok, except_pure_eq_ok] at hread
    obtain ⟨ms, hms, _, -, _, -, _, -, _, -, entries, hentries, functions, hfunctions, -⟩ := hread
    obtain rfl := Document.members_eq_of_bare hbare hms
    obtain ⟨entry, hentry⟩ := exists_of_mapM_objectMember
      (except_bind_eq_ok.mpr ⟨_, hentries, hfunctions⟩) hfound hf
    obtain ⟨function, hfunction, -⟩ := except_bind_eq_ok.mp hentry
    exact ⟨_, function, hfunction⟩
  | @world _ _ item _ _ _ key hlist hmem hbare hside hfound hitem hsingle =>
    obtain ⟨_, _, hread⟩ := Document.exists_read_of_mem hworlds hlist hmem
    simp only [World.ofDocument, except_bind_eq_ok, except_pure_eq_ok] at hread
    obtain ⟨ms, hms, _, -, _, -, imports, himports, exports, hexports, -⟩ := hread
    obtain rfl := Document.members_eq_of_bare hbare hms
    have hread : ∃ context entry, (do
        if !(key : Scalar).isShowable then throw (.unrepresentable .tooLongToShow)
        return (key, ← WorldItem.ofDocument (context ++ "/" ++ key.shown) item) :
        Except Fault (Scalar × WorldItem)) = .ok entry := by
      rcases hside with rfl | rfl
      · exact ⟨_, exists_of_mapM_objectMember (except_bind_eq_ok.mpr himports) hfound hitem⟩
      · exact ⟨_, exists_of_mapM_objectMember (except_bind_eq_ok.mpr hexports) hfound hitem⟩
    obtain ⟨context, entry, hentry⟩ := hread
    split at hentry <;> simp only [except_bind_eq_ok, except_pure_eq_ok] at hentry
    · obtain ⟨_, hthrow, -⟩ := hentry
      cases hthrow
    · obtain ⟨_, hentry, -⟩ := hentry
      rw [WorldItem.ofDocument, Document.single, hsingle] at hentry
      obtain ⟨_, hsame, hentry⟩ := except_bind_eq_ok.mp hentry
      cases hsame
      obtain ⟨function, hfunction, -⟩ := except_bind_eq_ok.mp hentry
      exact ⟨_, function, hfunction⟩

/-- A fault that a document admits is reported as one of these. -/
theorem Fault.reported_of_admits {fault : Fault} (h : document.Admits fault) :
    fault.reported.diagnostic.kind = .invalidDocument ∨
      fault.reported.diagnostic.kind = .danglingReference ∨
      (fault.reported = .notEnumerable ∧ document.HasUnwalkable) ∨
      (fault.reported = .unrepresentable .tooLongToShow ∧ document.isShowable = false) := by
  cases fault with
  | malformed what entity =>
    by_cases hshow : what.isShowable = true
    · simp [reported, hshow, diagnostic]
    · simp [reported, hshow, Bool.eq_false_iff.mpr fun hdocument => hshow (h hdocument)]
  | dangling arena id entity =>
    by_cases hshow : (Scalar.int id).isShowable = true
    · simp [reported, hshow, diagnostic]
    · simp [reported, hshow, Bool.eq_false_iff.mpr fun hdocument => hshow (h hdocument)]
  | unrepresentable what =>
    obtain ⟨rfl, hhidden⟩ := h
    exact .inr (.inr (.inr ⟨rfl, hhidden⟩))
  | notEnumerable => exact .inr (.inr (.inl ⟨rfl, h⟩))
  | unreadable | ambiguousWorld _ | unknownWorld _ _ | unsupportedKind _ _ | exportedResource _ _
  | notText _ | nameCollision _ _ _ _ | tooManyFlags _ _ | noIdentifier _ | unnamedInterface _
  | unnamedType _ | selfReference _ | unnamedDeclaration _ _ | undeclarable _ | notComposite _
  | alreadyRendered _ => exact h.elim

/-- **What a document is refused for.** A document that is a graph has no
function that cannot be walked. One that is refused is malformed or has an id
that points nowhere; or the refusal is that something cannot be walked, and
then some function of the document cannot be; or it is that a message cannot
be given, and then something in the document cannot be shown. -/
theorem Graph.refusals_ofDocument (document : Document) :
    (∀ g, Graph.ofDocument document = .ok g → ¬ document.HasUnwalkable) ∧
      ∀ fault, Graph.ofDocument document = .error fault →
        fault.diagnostic.kind = .invalidDocument ∨ fault.diagnostic.kind = .danglingReference ∨
          (fault = .notEnumerable ∧ document.HasUnwalkable) ∨
          (fault = .unrepresentable .tooLongToShow ∧ document.isShowable = false) := by
  have hreads := Graph.reads_ofObject document
  unfold Graph.ofDocument
  split
  · cases hobject : Graph.ofObject document with
    | ok g =>
      refine ⟨?_, fun fault hfault => (by cases hfault)⟩
      rintro _ - ⟨f, hf, hunwalkable⟩
      obtain ⟨_, _, hread⟩ := hf.exists_read hobject
      rw [Function.isUnwalkable_of_ofDocument hread] at hunwalkable
      cases hunwalkable
    | error e =>
      refine ⟨fun g hg => (by cases hg), ?_⟩
      rintro _ ⟨rfl⟩
      rw [hobject] at hreads
      exact Fault.reported_of_admits hreads
  · refine ⟨fun g hg => (by cases hg), ?_⟩
    rintro _ ⟨rfl⟩
    exact .inl rfl

/-- A document with one function, whose parameters are a number. -/
def Document.numberForParams : Document :=
  .object [(.text "interfaces", .list [.object [(.text "functions", .object [(.text "f",
    .object [(.text "name", .string "f"), (.text "params", .int 5)])])]])]

/-- The parameters of a function are a number: it is refused because they
cannot be walked, although it is JSON and all of it can be shown. -/
theorem Graph.refusals_ofDocument_number :
    Document.numberForParams.isJson = true ∧ Document.numberForParams.isShowable = true ∧
      Graph.ofDocument .numberForParams = .error .notEnumerable ∧
      Document.numberForParams.HasUnwalkable := by
  have hrefused : Graph.ofDocument .numberForParams = .error .notEnumerable := rfl
  refine ⟨rfl, by decide +kernel, hrefused, ?_⟩
  rcases (Graph.refusals_ofDocument _).2 _ hrefused with hkind | hkind | hwalk | hshow
  · cases hkind
  · cases hkind
  · exact hwalk.2
  · cases hshow.1

/-- **Not every document that is no graph is refused as malformed** or for an
id that points nowhere. -/
theorem Graph.not_refused_as_malformed :
    ¬ ∀ document : Document, document.isJson = true →
      (∃ g, Graph.ofDocument document = .ok g) ∨
        ∃ fault, Graph.ofDocument document = .error fault ∧
          (fault.diagnostic.kind = .invalidDocument ∨
            fault.diagnostic.kind = .danglingReference) := by
  intro hall
  have hrefused : Graph.ofDocument .numberForParams = .error .notEnumerable := rfl
  rcases hall .numberForParams rfl with ⟨g, hg⟩ | ⟨fault, hfault, hkind⟩
  · rw [hrefused] at hg
    cases hg
  · rw [hrefused] at hfault
    cases hfault
    rcases hkind with hkind | hkind <;> cases hkind

end ComponentBindings
