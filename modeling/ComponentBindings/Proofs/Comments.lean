import ComponentBindings.Proofs.Stripped
import ComponentBindings.Source.DocComment

/-!
# Documentation comments are comments

Block comments nest: within a comment every opening mark opens one more, and
every closing mark closes the innermost. A reader keeps the number of open
comments and the half of a mark that it has just passed
(`BlockComment.Reading`).

What a documentation comment puts around a line of the documentation ends with
a space, a line feed or both, so no mark is formed across it; and the white
space that it drops has no mark in it. Hence the marks of a documentation
comment are those of the documentation between one opening and one closing
mark. If the marks of the documentation pair up, the whole is one comment, and
only then (`BlockComment.docComment_isComment`).
-/

namespace ComponentBindings

namespace BlockComment

/-! ## Reading a comment -/

/-- The half of a mark that has just been passed. -/
inductive Half where
  /-- There is none. -/
  | none
  /-- A slash, which a star makes an opening mark. -/
  | slash
  /-- A star, which a slash makes a closing mark. -/
  | star
  deriving DecidableEq, Repr

/-- Where the reader of a comment is. -/
structure Reading where
  /-- The number of comments that are open. -/
  depth : Nat
  /-- The half of a mark that has just been passed. -/
  half : Half
  deriving DecidableEq, Repr

namespace Reading

/-- **Reading on by a character.** Once no comment is open, the comment is
over. -/
def next : Reading → Char → Reading
  | ⟨0, _⟩, _ => ⟨0, .none⟩
  | ⟨n + 1, .slash⟩, '*' => ⟨n + 2, .none⟩
  | ⟨n + 1, .star⟩, '/' => ⟨n, .none⟩
  | ⟨n + 1, _⟩, '/' => ⟨n + 1, .slash⟩
  | ⟨n + 1, _⟩, '*' => ⟨n + 1, .star⟩
  | ⟨n + 1, _⟩, _ => ⟨n + 1, .none⟩

/-- Reading on by a text. -/
def run (r : Reading) (cs : List Char) : Reading := cs.foldl next r

/-- Behind the opening mark of a comment. -/
def opened : Reading := ⟨1, .none⟩

/-- The same place, with no half of a mark before it. -/
def calm (r : Reading) : Reading := ⟨r.depth, .none⟩

@[simp] theorem depth_calm (r : Reading) : r.calm.depth = r.depth := rfl

@[simp] theorem calm_calm (r : Reading) : r.calm.calm = r.calm := rfl

@[simp] theorem run_nil (r : Reading) : r.run [] = r := rfl

@[simp] theorem run_cons (r : Reading) (c : Char) (cs : List Char) :
    r.run (c :: cs) = (r.next c).run cs := rfl

@[simp] theorem run_append (r : Reading) (cs more : List Char) :
    r.run (cs ++ more) = (r.run cs).run more := List.foldl_append

/-- A character that is no half of a mark is passed. -/
theorem next_eq_calm {c : Char} (hslash : c ≠ '/') (hstar : c ≠ '*') (r : Reading) :
    r.next c = r.calm := by
  obtain ⟨_ | n, half⟩ := r
  · rfl
  · cases half <;> unfold next <;> split <;> simp_all [calm]

/-- White space is no half of a mark. -/
theorem next_of_isBlank {c : Char} (hblank : Text.isBlank c = true) (r : Reading) :
    r.next c = r.calm := by
  refine next_eq_calm ?_ ?_ r <;> rintro rfl <;> cases hblank

/-- What ends a line is no half of a mark. -/
theorem next_of_isLineBoundary {c : Char} (hend : Text.isLineBoundary c = true) (r : Reading) :
    r.next c = r.calm := by
  refine next_eq_calm ?_ ?_ r <;> rintro rfl <;> cases hend

variable {cs : List Char}

/-- White space is passed. -/
theorem calm_run_of_isBlank (hblank : ∀ c ∈ cs, Text.isBlank c = true) (r : Reading) :
    r.calm.run cs = r.calm := by
  induction cs with
  | nil => rfl
  | cons c cs ih =>
    rw [run_cons, next_of_isBlank (hblank c List.mem_cons_self), calm_calm]
    exact ih fun c hc => hblank c (List.mem_cons_of_mem _ hc)

/-- White space changes nothing but the half of a mark before it. -/
theorem run_calm_of_isBlank (hblank : ∀ c ∈ cs, Text.isBlank c = true) (r : Reading) :
    (r.run cs).calm = r.calm := by
  cases cs with
  | nil => rfl
  | cons c cs =>
    rw [run_cons, next_of_isBlank (hblank c List.mem_cons_self),
      calm_run_of_isBlank fun c hc => hblank c (List.mem_cons_of_mem _ hc), calm_calm]

/-- **White space around a text** does not change how many comments are open
behind it. -/
theorem run_strip (r : Reading) (cs : List Char) :
    (r.calm.run (Text.strip cs)).calm = (r.calm.run cs).calm := by
  obtain ⟨before, after, heq, hbefore, hafter⟩ := Text.exists_eq_append_strip cs
  conv_rhs => rw [heq, run_append, run_append, run_calm_of_isBlank hafter,
    calm_run_of_isBlank hbefore]

end Reading

/-- **The number of comments that are open** behind a text that stands behind
an opening mark. -/
def depthBehind (text : String) : Nat := (Reading.opened.run text.toList).depth

/-- **A text is one comment** on lines of its own: it opens with its first
character, it is still open before the last character of its last line, and
closed behind it. -/
def IsComment (text : String) : Prop :=
  ∃ body, text = "/*" ++ body ++ "*/\n" ∧ depthBehind (body ++ "*") ≠ 0 ∧
    depthBehind (body ++ "*/") = 0

/-! ## The lines of a text -/

namespace Reading

/-- Reading on line by line. -/
def runLines (r : Reading) (lines : List (List Char)) : Reading :=
  lines.foldl (fun r line => (r.run line).calm) r

@[simp] theorem runLines_nil (r : Reading) : r.runLines [] = r := rfl

@[simp] theorem runLines_cons (r : Reading) (line : List Char) (more : List (List Char)) :
    r.runLines (line :: more) = (r.run line).calm.runLines more := rfl

/-- **A text is read line by line**, since what ends a line is no half of a
mark. -/
theorem calm_run_eq (r : Reading) (cs : List Char) :
    (r.run cs).calm = (r.runLines (Text.lines cs)).calm := by
  fun_induction Text.lines cs generalizing r with
  | case1 => rfl
  | case2 rest ih =>
    rw [run_cons, run_cons, runLines_cons, next_of_isLineBoundary rfl, next_of_isLineBoundary rfl]
    exact ih _
  | case3 c rest _ hend ih =>
    rw [run_cons, runLines_cons, next_of_isLineBoundary hend]
    exact ih _
  | case4 c rest _ _ hlines ih =>
    rw [run_cons, ih, hlines]
    rfl
  | case5 c rest _ _ line more hlines ih =>
    rw [run_cons, ih, hlines]
    rfl

/-- **What stands before a later line** of a documentation comment adds no mark
to it. -/
theorem run_docLine (r : Reading) (line : String) :
    (r.calm.run (docLine line).toList).calm = (r.calm.run line.toList).calm := by
  have hstar : (r.calm.run " *".toList).calm = r.calm ∧ r.calm.run " *  ".toList = r.calm := by
    obtain ⟨_ | n, _⟩ := r <;> exact ⟨rfl, rfl⟩
  unfold docLine
  split
  · next hblank =>
    rw [List.isEmpty_iff, Text.strip_eq_nil_iff] at hblank
    rw [hstar.1, calm_run_of_isBlank hblank, calm_calm]
  · rw [String.toList_append, run_append, hstar.2]

/-- The later lines of a documentation comment are read as the lines of the
documentation are. -/
theorem run_docLines (r : Reading) (rest : List String) :
    (r.run (String.join (rest.map fun line => "\n" ++ docLine line)).toList).calm =
      (r.calm.runLines (rest.map String.toList)).calm := by
  induction rest generalizing r with
  | nil => rfl
  | cons line rest ih =>
    have hfeed : r.run "\n".toList = r.calm := next_of_isLineBoundary rfl r
    rw [List.map_cons, List.map_cons, String.join_cons, String.toList_append, String.toList_append,
      run_append, run_append, hfeed, ih, run_docLine, runLines_cons]

end Reading

/-! ## Documentation comments -/

/-- What stands between the marks of a documentation comment. -/
def docBody (first : String) (rest : List String) : String :=
  "* " ++ first ++ String.join (rest.map fun line => "\n" ++ docLine line) ++ "\n "

/-- The lines of a documentation comment, one below the other. -/
theorem intercalate_docLines (first : String) (rest : List String) :
    "\n".intercalate (first :: rest.map docLine ++ [" */"]) =
      first ++ String.join (rest.map fun line => "\n" ++ docLine line) ++ "\n */" := by
  induction rest generalizing first with
  | nil =>
    rw [List.map_nil, List.map_nil, List.cons_append, List.nil_append,
      String.intercalate_cons_cons, String.intercalate_singleton, String.join_nil,
      String.append_empty, String.append_assoc]
    rfl
  | cons line rest ih =>
    rw [List.map_cons, List.cons_append, List.cons_append, String.intercalate_cons_cons,
      ← List.cons_append, ih, List.map_cons, String.join_cons]
    simp only [String.append_assoc]

/-- Documentation that is blank has no comment. -/
theorem docComment_of_isBlank {docs : Option String}
    (hblank : ∀ c ∈ (docs.getD "").toList, Text.isBlank c = true) : docComment docs = "" := by
  have hsplit : Text.splitLines (Text.stripped (docs.getD "")) = [] := by
    rw [Text.splitLines, Text.stripped, Text.strip_eq_nil_iff.mpr hblank]
    rfl
  unfold docComment
  rw [hsplit]

/-- **What a documentation comment is.** Its body has the marks of the
documentation, and no half of a mark at its end. -/
theorem exists_docBody {docs : Option String}
    (hdocs : ¬ ∀ c ∈ (docs.getD "").toList, Text.isBlank c = true) :
    ∃ body, docComment docs = "/*" ++ body ++ "*/\n" ∧
      Reading.opened.run body.toList = ⟨depthBehind (docs.getD ""), .none⟩ := by
  generalize htext : docs.getD "" = text at hdocs ⊢
  have hlines : Text.lines (Text.strip text.toList) ≠ [] := by
    rwa [Ne, Text.lines_eq_nil_iff, Text.strip_eq_nil_iff]
  obtain ⟨line, more, hlines⟩ := List.exists_cons_of_ne_nil hlines
  have hsplit : Text.splitLines (Text.stripped text) =
      String.ofList line :: more.map String.ofList := by
    rw [Text.splitLines, Text.stripped, String.toList_ofList, hlines, List.map_cons]
  refine ⟨docBody (String.ofList line) (more.map String.ofList), ?_, ?_⟩
  · have hopening : "/** " = "/*" ++ "* " := rfl
    have hclosing : "\n */" ++ "\n" = "\n " ++ "*/\n" := rfl
    unfold docComment
    rw [htext, hsplit]
    dsimp only
    rw [intercalate_docLines, docBody, hopening]
    simp only [String.append_assoc, hclosing]
  · have hfirst : Reading.opened.run "* ".toList = Reading.opened := rfl
    have hlast (r : Reading) : r.run "\n ".toList = r.calm := by
      rw [String.toList_ofList, Reading.run_cons, Reading.next_of_isBlank rfl]
      exact Reading.calm_run_of_isBlank (List.forall_mem_singleton.mpr rfl) r
    have hmore : (more.map String.ofList).map String.toList = more := by simp
    calc Reading.opened.run (docBody (String.ofList line) (more.map String.ofList)).toList
        = ((Reading.opened.run line).run (String.join ((more.map String.ofList).map
            fun line => "\n" ++ docLine line)).toList).calm := by
          simp only [docBody, String.toList_append, Reading.run_append, String.toList_ofList,
            hfirst, hlast]
      _ = (Reading.opened.runLines (Text.lines (Text.strip text.toList))).calm := by
          rw [Reading.run_docLines, hmore, hlines, Reading.runLines_cons]
      _ = (Reading.opened.run text.toList).calm := by
          rw [← Reading.calm_run_eq]
          exact Reading.run_strip Reading.opened text.toList

variable {body : String} {depth : Nat}

/-- A closing mark closes the innermost comment that is open, with its second
character. -/
theorem depthBehind_closing (hread : Reading.opened.run body.toList = ⟨depth, .none⟩) :
    depthBehind (body ++ "*") = depth ∧ depthBehind (body ++ "*/") = depth - 1 := by
  unfold depthBehind
  rw [String.toList_append, String.toList_append, Reading.run_append, Reading.run_append, hread]
  cases depth <;> exact ⟨rfl, rfl⟩

/-- A text with the marks of a comment around it is one comment exactly if its
own marks pair up. -/
theorem isComment_iff (hread : Reading.opened.run body.toList = ⟨depth, .none⟩) :
    IsComment ("/*" ++ body ++ "*/\n") ↔ depth = 1 := by
  obtain ⟨hstar, hend⟩ := depthBehind_closing hread
  constructor
  · rintro ⟨body', hsame, hopen, hclosed⟩
    obtain rfl : body = body' := by
      rwa [String.append_left_inj, String.append_right_inj] at hsame
    omega
  · rintro rfl
    exact ⟨body, rfl, by omega, by omega⟩

/-- The half of a mark that has just been passed, as it was read. -/
def Half.chars : Half → List Char
  | .none => []
  | .slash => ['/']
  | .star => ['*']

/-- A text with neither mark in it. -/
structure Unmarked (cs : List Char) : Prop where
  /-- It opens no comment. -/
  opening : ¬ ['/', '*'] <:+: cs
  /-- It closes no comment. -/
  closing : ¬ ['*', '/'] <:+: cs

/-- What is behind a text without marks has none. -/
theorem Unmarked.of_suffix {cs rest : List Char} (h : Unmarked cs) (hrest : rest <:+ cs) :
    Unmarked rest :=
  ⟨fun hmark => h.opening (hmark.trans hrest.isInfix),
    fun hmark => h.closing (hmark.trans hrest.isInfix)⟩

/-- **A text without marks** opens no comment and closes none. -/
theorem Unmarked.depth_run {cs : List Char} {half : Half} (h : Unmarked (half.chars ++ cs)) :
    (Reading.run ⟨depth + 1, half⟩ cs).depth = depth + 1 := by
  induction cs generalizing half with
  | nil => rfl
  | cons c cs ih =>
    by_cases hslash : c = '/'
    · subst hslash
      cases half with
      | star => exact absurd ⟨[], cs, rfl⟩ h.closing
      | none => exact ih h
      | slash => exact ih (h.of_suffix ⟨['/'], rfl⟩)
    by_cases hstar : c = '*'
    · subst hstar
      cases half with
      | slash => exact absurd ⟨[], cs, rfl⟩ h.opening
      | none => exact ih h
      | star => exact ih (h.of_suffix ⟨['*'], rfl⟩)
    rw [Reading.run_cons, Reading.next_eq_calm hslash hstar]
    have hrest : Unmarked (Half.none.chars ++ cs) :=
      h.of_suffix ⟨half.chars ++ [c], by simp [Half.chars]⟩
    exact ih hrest

/-- Documentation without marks leaves its comment open. -/
theorem depthBehind_of_unmarked {text : String} (h : Unmarked text.toList) :
    depthBehind text = 1 :=
  Unmarked.depth_run (show Unmarked (Half.none.chars ++ text.toList) from h)

/-- **When documentation becomes one comment.** Documentation that is absent
or blank has no comment. Any other is put between an opening and a closing
mark, and its own marks count: the whole is one comment if they pair up, as
they do if there are none. If they close more than they open, the comment is
over before its last mark, and if they open more than they close, it is still
open behind it. -/
theorem docComment_isComment (docs : Option String) :
    (docComment docs = "" ↔ ∀ c ∈ (docs.getD "").toList, Text.isBlank c = true) ∧
    (docComment docs ≠ "" →
      (IsComment (docComment docs) ↔ depthBehind (docs.getD "") = 1) ∧
      (Unmarked (docs.getD "").toList → IsComment (docComment docs)) ∧
      ∃ body, docComment docs = "/*" ++ body ++ "*/\n" ∧
        depthBehind body = depthBehind (docs.getD "") ∧
        depthBehind (body ++ "*/") = depthBehind (docs.getD "") - 1) := by
  by_cases hblank : ∀ c ∈ (docs.getD "").toList, Text.isBlank c = true
  · have hempty := docComment_of_isBlank hblank
    exact ⟨⟨fun _ => hblank, fun _ => hempty⟩, fun hne => absurd hempty hne⟩
  · obtain ⟨body, htext, hread⟩ := exists_docBody hblank
    have hne : docComment docs ≠ "" := by
      intro hempty
      have hlength := congrArg String.length (htext.symm.trans hempty)
      simp at hlength
    have hiff : IsComment (docComment docs) ↔ depthBehind (docs.getD "") = 1 := by
      rw [htext, isComment_iff hread]
    have hbody : depthBehind body = depthBehind (docs.getD "") := by rw [depthBehind, hread]
    exact ⟨⟨fun hempty => absurd hempty hne, fun h => absurd h hblank⟩, fun _ =>
      ⟨hiff, fun h => hiff.mpr (depthBehind_of_unmarked h), body, htext, hbody,
        (depthBehind_closing hread).2⟩⟩

/-- Marks that pair up may stand in documentation, across its lines. -/
theorem docComment_isComment_paired :
    let docs := some "\tAdds. /* Not\r\n\n  yet. */ Or /** so **/.\n"
    docComment docs ≠ "" ∧ IsComment (docComment docs) := by
  have hne : docComment (some "\tAdds. /* Not\r\n\n  yet. */ Or /** so **/.\n") ≠ "" := by decide
  exact ⟨hne, ((docComment_isComment _).2 hne).1.mpr rfl⟩

/-- **A pattern of file names opens a comment** that nothing closes, and a
closing mark has what is behind it read as code. -/
theorem not_isComment_docComment :
    docComment (some "matches dir/*.txt") = "/** matches dir/*.txt\n */\n" ∧
      ¬ IsComment (docComment (some "matches dir/*.txt")) ∧
      ¬ IsComment (docComment (some "Ends. */ object Here /* Begins.")) := by
  have hpaired : ∀ docs : Option String, (¬ ∀ c ∈ (docs.getD "").toList, Text.isBlank c = true) →
      depthBehind (docs.getD "") ≠ 1 → ¬ IsComment (docComment docs) := by
    intro docs hdocs hdepth
    obtain ⟨body, htext, hread⟩ := exists_docBody hdocs
    rw [htext, isComment_iff hread]
    exact hdepth
  refine ⟨rfl, hpaired _ (fun hblank => ?_) (by decide), hpaired _ (fun hblank => ?_) (by decide)⟩
  · exact absurd (hblank 'm' (by decide)) (by decide)
  · exact absurd (hblank 'E' (by decide)) (by decide)

end BlockComment

end ComponentBindings
