import ComponentBindings.Session

/-!
# Code that is built in two levels

A declaration is built as a block of its own, at depth zero, and its text is
then set into a module line by line, deeper. Between the two, the lines of the
declaration are joined by line feeds and split again. Splitting a text at its
line boundaries undoes the joining, but for two things: a line that has a
boundary in it becomes several, and a last line that is empty is gone
(`Text.splitLines_intercalate`).

Where neither happens, a declaration in a module is what its steps add at the
depth of the module (`CodeBlock.addLines_render`). That holds because what
steps add can be said without the depth that they start at
(`CodeStep.addedBy`): every line comes with how much deeper it stands, and
depths add up (`CodeBlock.place_place`).
-/

namespace ComponentBindings

/-! ## Splitting what has been joined -/

namespace Text

/-- **A text that is on one line**: none of its characters ends a line. -/
def IsLine (text : String) : Prop := ∀ c ∈ text.toList, isLineBoundary c = false

instance : DecidablePred IsLine := fun text => List.decidableBAll _ text.toList

/-- Two texts together are on one line exactly if both are. -/
theorem isLine_append {text more : String} :
    IsLine (text ++ more) ↔ IsLine text ∧ IsLine more := by
  simp only [IsLine, String.toList_append, List.forall_mem_append]

/-- The characters of lines, each with a line feed behind it. -/
def fed (ls : List (List Char)) : List Char := ls.flatMap (· ++ ['\n'])

@[simp] theorem fed_nil : fed [] = [] := rfl

@[simp] theorem fed_cons (l : List Char) (ls : List (List Char)) :
    fed (l :: ls) = l ++ '\n' :: fed ls := by
  simp [fed]

@[simp] theorem fed_append (ls more : List (List Char)) : fed (ls ++ more) = fed ls ++ fed more :=
  List.flatMap_append

/-- Lines that are joined have a line feed behind all but the last. -/
theorem intercalate_concat (ls : List (List Char)) (l : List Char) :
    ['\n'].intercalate (ls ++ [l]) = fed ls ++ l := by
  induction ls with
  | nil => simp
  | cons first ls ih =>
    rw [List.cons_append, List.intercalate_cons_of_ne_nil (by simp), ih, fed_cons]
    simp

/-- Lines that are joined, with a line feed behind the last. -/
theorem intercalate_feed {ls : List (List Char)} (hne : ls ≠ []) :
    ['\n'].intercalate ls ++ ['\n'] = fed ls := by
  obtain ⟨init, l, rfl⟩ := List.eq_nil_or_concat ls |>.resolve_left hne
  rw [List.concat_eq_append, intercalate_concat, fed_append, List.append_assoc]
  simp

variable {cs : List Char} {ls : List (List Char)}

/-- A line that ends with a line feed is split off. -/
theorem lines_append_feed (h : ∀ c ∈ cs, isLineBoundary c = false) (rest : List Char) :
    lines (cs ++ '\n' :: rest) = cs :: lines rest := by
  induction cs with
  | nil => exact lines_cons_boundary rfl fun heq => absurd heq (by decide)
  | cons c cs ih =>
    rw [List.cons_append, lines_cons (h c List.mem_cons_self),
      ih fun d hd => h d (List.mem_cons_of_mem _ hd)]
    rfl

/-- A text on one line is that line. -/
theorem lines_of_forall (h : ∀ c ∈ cs, isLineBoundary c = false) (hne : cs ≠ []) :
    lines cs = [cs] := by
  induction cs with
  | nil => exact absurd rfl hne
  | cons c cs ih =>
    rw [lines_cons (h c List.mem_cons_self)]
    cases cs with
    | nil => rfl
    | cons d cs =>
      rw [ih (fun e he => h e (List.mem_cons_of_mem _ he)) (by simp)]
      rfl

/-- **A line feed parts a text**, whatever stands before it and behind it. -/
theorem lines_append (cs rest : List Char) :
    lines (cs ++ '\n' :: rest) = lines (cs ++ ['\n']) ++ lines rest := by
  have hfeed (more : List Char) : lines ('\n' :: more) = [] :: lines more :=
    lines_cons_boundary rfl fun heq => absurd heq (by decide)
  -- Two characters that end a line together are taken together.
  fun_induction lines cs with
  | case1 => rw [List.nil_append, List.nil_append, hfeed, hfeed]; rfl
  | case2 cs ih => simp only [List.cons_append, lines, ih]
  | case3 c cs hpair hend ih =>
    by_cases hfirst : c = '\r' ∧ cs = []
    · obtain ⟨rfl, rfl⟩ := hfirst
      rfl
    · have hcut (more : List Char) :
          lines (c :: cs ++ '\n' :: more) = [] :: lines (cs ++ '\n' :: more) := by
        refine lines_cons_boundary hend fun hreturn => ?_
        cases cs with
        | nil => exact absurd ⟨hreturn, rfl⟩ hfirst
        | cons d cs =>
          rintro ⟨rfl⟩
          exact hpair cs hreturn rfl
      rw [hcut, hcut, ih, List.cons_append]
  | case4 c cs _ hend _ ih | case5 c cs _ hend _ _ _ ih =>
    have hc : isLineBoundary c = false := eq_false_of_ne_true hend
    have hne : lines (cs ++ ['\n']) ≠ [] := by simp [lines_eq_nil_iff]
    obtain ⟨line, more, hlines⟩ := List.exists_cons_of_ne_nil hne
    rw [List.cons_append, List.cons_append, lines_cons hc, lines_cons hc, ih, hlines]
    rfl

/-- The lines of a text have no boundaries in them. -/
theorem isLineBoundary_of_mem_lines {line : List Char} (hline : line ∈ lines cs) :
    ∀ c ∈ line, isLineBoundary c = false := by
  fun_induction lines cs generalizing line with
  | case1 => cases hline
  | case2 cs ih | case3 _ cs _ _ ih =>
    rcases List.mem_cons.mp hline with rfl | hline
    · exact fun c hc => absurd hc List.not_mem_nil
    · exact ih hline
  | case4 c cs _ hend _ _ =>
    obtain rfl := List.mem_singleton.mp hline
    simpa using hend
  | case5 c cs _ hend first more hlines ih =>
    rw [hlines] at ih
    rcases List.mem_cons.mp hline with rfl | hline
    · exact List.forall_mem_cons.mpr ⟨eq_false_of_ne_true hend, ih List.mem_cons_self⟩
    · exact ih (List.mem_cons_of_mem _ hline)

/-- Lines that are all ended by a line feed are split off. -/
theorem lines_fed_append (h : ∀ l ∈ ls, ∀ c ∈ l, isLineBoundary c = false) (rest : List Char) :
    lines (fed ls ++ rest) = ls ++ lines rest := by
  induction ls with
  | nil => rfl
  | cons l ls ih =>
    rw [fed_cons, List.append_assoc, List.cons_append, lines_append_feed (h l List.mem_cons_self),
      ih fun m hm => h m (List.mem_cons_of_mem _ hm), List.cons_append]

/-- Texts that are all ended by a line feed are split by themselves. -/
theorem lines_fed_append_append (ls : List (List Char)) (rest : List Char) :
    lines (fed ls ++ rest) = lines (fed ls) ++ lines rest := by
  rcases List.eq_nil_or_concat ls with rfl | ⟨init, l, rfl⟩
  · rfl
  · have hfeed : fed (init ++ [l]) = (fed init ++ l) ++ ['\n'] := by simp
    rw [List.concat_eq_append, hfeed, List.append_assoc, List.singleton_append, lines_append]

/-- The characters of texts that are joined by line feeds. -/
theorem toList_intercalate_feed (texts : List String) :
    ("\n".intercalate texts).toList = ['\n'].intercalate (texts.map String.toList) :=
  String.toList_intercalate

/-- The characters of texts, each with a line feed behind it. -/
theorem toList_intercalate_append_feed {texts : List String} (hne : texts ≠ []) :
    ("\n".intercalate texts ++ "\n").toList = fed (texts.map String.toList) := by
  rw [String.toList_append, toList_intercalate_feed]
  exact intercalate_feed (by simpa using hne)

/-- The lines of a text are each on one line. -/
theorem isLine_of_mem_splitLines {text line : String} (h : line ∈ splitLines text) :
    IsLine line := by
  obtain ⟨cs, hcs, rfl⟩ := List.mem_map.mp h
  rw [IsLine, String.toList_ofList]
  exact isLineBoundary_of_mem_lines hcs

variable {texts before after : List String}

/-- **Splitting lines that have been joined** gives the lines, without the last
one if it is empty. -/
theorem splitLines_intercalate (h : ∀ text ∈ texts, IsLine text) :
    splitLines ("\n".intercalate texts) =
      if texts.getLast? = some "" then texts.dropLast else texts := by
  rcases List.eq_nil_or_concat texts with rfl | ⟨init, last, rfl⟩
  · rfl
  · rw [List.concat_eq_append] at h ⊢
    have hinit : ∀ l ∈ init.map String.toList, ∀ c ∈ l, isLineBoundary c = false :=
      List.forall_mem_map.mpr fun text htext => h text (List.mem_append_left _ htext)
    have hback : (init.map String.toList).map String.ofList = init := by simp
    rw [splitLines, toList_intercalate_feed, List.map_append, List.map_singleton,
      intercalate_concat, lines_fed_append hinit, List.map_append, hback, List.getLast?_concat,
      List.dropLast_concat]
    by_cases hlast : last = ""
    · rw [if_pos (congrArg some hlast), hlast]
      exact List.append_nil _
    · have hne : last.toList ≠ [] := by simpa using hlast
      rw [if_neg (by simpa using hlast), lines_of_forall (h last (by simp)) hne]
      simp

/-- Lines that are joined and ended by a line feed are all split off again. -/
theorem splitLines_intercalate_feed (h : ∀ text ∈ texts, IsLine text) (hne : texts ≠ []) :
    splitLines ("\n".intercalate texts ++ "\n") = texts := by
  have hlines := lines_fed_append (List.forall_mem_map.mpr h) []
  rw [List.append_nil] at hlines
  rw [splitLines, toList_intercalate_append_feed hne, hlines]
  simp [lines]

/-- **Lines among others** are split off by themselves, whatever the others
are. -/
theorem isInfix_splitLines (h : ∀ text ∈ texts, IsLine text) :
    texts <:+: splitLines ("\n".intercalate (before ++ texts ++ after) ++ "\n") := by
  by_cases hne : before ++ texts ++ after = []
  · obtain rfl : texts = [] := by simp_all
    exact List.nil_infix
  · refine ⟨(lines (fed (before.map String.toList))).map String.ofList,
      (lines (fed (after.map String.toList))).map String.ofList, ?_⟩
    rw [splitLines, toList_intercalate_append_feed hne, List.map_append, List.map_append,
      fed_append, fed_append, List.append_assoc, List.append_assoc, lines_fed_append_append,
      lines_fed_append (List.forall_mem_map.mpr h)]
    simp

/-- **A line among others that are joined** is split off by itself, if it is not
empty. -/
theorem mem_splitLines_intercalate {text : String} (h : IsLine text) (hne : text ≠ "")
    (hmem : text ∈ texts) : text ∈ splitLines ("\n".intercalate texts) := by
  obtain ⟨before, after, rfl⟩ := List.append_of_mem hmem
  have hback : text = String.ofList text.toList := String.ofList_toList.symm
  have hfirst : ∃ rest, ("\n".intercalate (before ++ text :: after)).toList =
      fed (before.map String.toList) ++ rest ∧ text.toList ∈ lines rest := by
    rcases List.eq_nil_or_concat after with rfl | ⟨init, last, rfl⟩
    · refine ⟨text.toList, ?_, ?_⟩
      · rw [toList_intercalate_feed, List.map_append, List.map_singleton, intercalate_concat]
      · rw [lines_of_forall h (by simpa using hne)]
        exact List.mem_singleton_self _
    · refine ⟨text.toList ++ '\n' :: (fed (init.map String.toList) ++ last.toList), ?_, ?_⟩
      · have hlist : before ++ text :: init.concat last = (before ++ text :: init) ++ [last] := by
          simp
        rw [hlist, toList_intercalate_feed, List.map_append, List.map_singleton, intercalate_concat,
          List.map_append, List.map_cons, fed_append, fed_cons]
        simp
      · rw [lines_append_feed h]
        exact List.mem_cons_self
  obtain ⟨rest, htext, hrest⟩ := hfirst
  rw [splitLines, htext, lines_fed_append_append, List.map_append]
  exact List.mem_append_right _ (List.mem_map.mpr ⟨_, hrest, hback.symm⟩)

end Text

/-! ## What steps add -/

namespace CodeStep

mutual

/-- **The lines that a step adds**, each with how much deeper it stands. -/
def added : CodeStep → List (Nat × String)
  | line text => [(0, text)]
  | lines text => (Text.splitLines text).map (0, ·)
  | indented steps => (addedBy steps).map fun l => (l.1 + 1, l.2)

/-- The lines that steps add, each with how much deeper it stands. -/
def addedBy : List CodeStep → List (Nat × String)
  | [] => []
  | s :: rest => added s ++ addedBy rest

end

mutual

/-- **A step whose single lines are on one line.** -/
def Unbroken : CodeStep → Prop
  | line text => Text.IsLine text
  | lines _ => True
  | indented steps => AllUnbroken steps

/-- Steps whose single lines are on one line. -/
def AllUnbroken : List CodeStep → Prop
  | [] => True
  | s :: rest => Unbroken s ∧ AllUnbroken rest

end

mutual

/-- Whether the single lines of a step are on one line can be decided. -/
instance decidableUnbroken : (s : CodeStep) → Decidable (Unbroken s)
  | .line text => inferInstanceAs (Decidable (Text.IsLine text))
  | .lines _ => inferInstanceAs (Decidable True)
  | .indented steps => decidableAllUnbroken steps

/-- Whether the single lines of steps are on one line can be decided. -/
instance decidableAllUnbroken : (steps : List CodeStep) → Decidable (AllUnbroken steps)
  | [] => inferInstanceAs (Decidable True)
  | s :: rest =>
    have := decidableUnbroken s
    have := decidableAllUnbroken rest
    inferInstanceAs (Decidable (Unbroken s ∧ AllUnbroken rest))

end

@[simp] theorem addedBy_append (steps more : List CodeStep) :
    addedBy (steps ++ more) = addedBy steps ++ addedBy more := by
  induction steps with
  | nil => rfl
  | cons s rest ih => rw [List.cons_append, addedBy, addedBy, ih, List.append_assoc]

/-- What a step adds stands together in what all steps add. -/
theorem isInfix_addedBy {s : CodeStep} {steps : List CodeStep} (h : s ∈ steps) :
    added s <:+: addedBy steps := by
  obtain ⟨before, after, rfl⟩ := List.append_of_mem h
  rw [addedBy_append, addedBy, ← List.append_assoc]
  exact List.infix_append _ _ _

mutual

/-- What a step adds is on one line, if its single lines are. -/
theorem Unbroken.isLine {s : CodeStep} (h : Unbroken s) : ∀ l ∈ added s, Text.IsLine l.2 := by
  cases s with
  | line text => simpa [added, Unbroken] using h
  | lines text =>
    exact List.forall_mem_map.mpr fun line hline => Text.isLine_of_mem_splitLines hline
  | indented steps =>
    exact List.forall_mem_map.mpr (AllUnbroken.isLine (show AllUnbroken steps from h))

/-- What steps add is on one line each, if their single lines are. -/
theorem AllUnbroken.isLine {steps : List CodeStep} (h : AllUnbroken steps) :
    ∀ l ∈ addedBy steps, Text.IsLine l.2 := by
  cases steps with
  | nil => exact fun _ hl => absurd hl List.not_mem_nil
  | cons s rest =>
    exact List.forall_mem_append.mpr ⟨Unbroken.isLine h.1, AllUnbroken.isLine h.2⟩

end

end CodeStep

namespace CodeBlock

open CodeStep (addedBy AllUnbroken)

variable {b : CodeBlock} {steps : List CodeStep}

/-- Depths add up. -/
theorem indentation_add {outer : Int} (h : 0 ≤ outer) (inner : Nat) :
    indentation (outer + inner) = indentation outer ++ indentation inner := by
  have hdepth : 2 * (outer + inner).toNat = 2 * outer.toNat + 2 * (inner : Int).toNat := by omega
  rw [indentation, hdepth, ← List.replicate_append_replicate, String.ofList_append]
  rfl

/-- A line at depth zero stands as it is. -/
@[simp] theorem place_zero (line : String) : place 0 line = line := by
  have hnone : indentation 0 = "" := rfl
  by_cases hline : line = ""
  · rw [place, if_pos hline, hline]
  · rw [place, if_neg hline, hnone, String.empty_append]

/-- **A line that is set in twice** stands as deep as both together. -/
theorem place_place {outer : Int} (h : 0 ≤ outer) (inner : Nat) (line : String) :
    place outer (place inner line) = place (outer + inner) line := by
  by_cases hline : line = ""
  · simp [place, hline]
  · have hne : indentation inner ++ line ≠ "" := by simp [hline]
    simp only [place, if_neg hline, if_neg hne, indentation_add h, String.append_assoc]

/-- A line is empty at a depth only if it is empty. -/
theorem place_eq_empty_iff {depth : Int} {line : String} : place depth line = "" ↔ line = "" := by
  by_cases hline : line = "" <;> simp [place, hline]

/-- A line at a depth is on one line if it is so by itself. -/
theorem isLine_place {line : String} (depth : Int) (h : Text.IsLine line) :
    Text.IsLine (place depth line) := by
  unfold place
  split
  · exact fun c hc => absurd hc (by simp)
  · refine Text.isLine_append.mpr ⟨fun c hc => ?_, h⟩
    rw [indentation, String.toList_ofList] at hc
    rw [List.eq_of_mem_replicate hc]
    rfl

mutual

/-- **What a step does**: it adds its lines, each as deep as it stands, and
leaves the depth as it is. -/
theorem step_eq (b : CodeBlock) (s : CodeStep) :
    b.step s = { b with
      lines := b.lines ++ (CodeStep.added s).map fun l => place (b.depth + l.1) l.2 } := by
  cases s with
  | line text => simp [step, addLine, CodeStep.added]
  | lines text => simp [step, addLines, CodeStep.added, Function.comp_def]
  | indented steps =>
    have hdepth (n : Nat) : b.depth + 1 + n = b.depth + (n + 1 : Nat) := by omega
    rw [step, run_eq b.deeper steps]
    simp [deeper, shallower, CodeStep.added, Function.comp_def, hdepth]

/-- **What steps do**: they add their lines, each as deep as it stands, and
leave the depth as it is. -/
theorem run_eq (b : CodeBlock) (steps : List CodeStep) :
    b.run steps = { b with
      lines := b.lines ++ (addedBy steps).map fun l => place (b.depth + l.1) l.2 } := by
  cases steps with
  | nil => simp [run, addedBy]
  | cons s rest => simp [run, addedBy, step_eq b s, run_eq _ rest]

end

variable {depth : Int}

/-- The lines that steps add to an empty block. -/
theorem lines_run (depth : Int) (steps : List CodeStep) :
    (run ⟨depth, []⟩ steps).lines = (addedBy steps).map fun l => place (depth + l.1) l.2 := by
  rw [run_eq, List.nil_append]

/-- What steps add at a depth is what they add at depth zero, set in. -/
theorem map_place_lines_run (h : 0 ≤ depth) (steps : List CodeStep) :
    (run {} steps).lines.map (place depth) = (run ⟨depth, []⟩ steps).lines := by
  rw [lines_run, lines_run, List.map_map]
  refine List.map_congr_left fun l _ => ?_
  rw [Function.comp_apply, Int.zero_add, place_place h]

/-- What steps add is on one line each, at any depth. -/
theorem isLine_of_mem_run (hsteps : AllUnbroken steps) :
    ∀ line ∈ (run ⟨depth, []⟩ steps).lines, Text.IsLine line := by
  rw [lines_run]
  exact List.forall_mem_map.mpr fun l hl => isLine_place _ (hsteps.isLine l hl)

/-- The text of steps has the lines that they add, if the last is not empty. -/
theorem splitLines_render (hsteps : AllUnbroken steps)
    (hlast : (run {} steps).lines.getLast? ≠ some "") :
    Text.splitLines (CodeStep.render steps) = (run {} steps).lines := by
  rw [CodeStep.render, code, Text.splitLines_intercalate (isLine_of_mem_run hsteps), if_neg hlast]

/-- With a line feed behind it, the text of steps has all lines that they
add. -/
theorem splitLines_render_feed (hsteps : AllUnbroken steps) (hne : (run {} steps).lines ≠ []) :
    Text.splitLines (CodeStep.render steps ++ "\n") = (run {} steps).lines := by
  rw [CodeStep.render, code, Text.splitLines_intercalate_feed (isLine_of_mem_run hsteps) hne]

/-- **A single line that steps add** is a line of their text, whatever the other
lines are. -/
theorem place_mem_splitLines_render {line : String} {inner : Nat} (hline : Text.IsLine line)
    (hne : line ≠ "") (h : (inner, line) ∈ addedBy steps) :
    place inner line ∈ Text.splitLines (CodeStep.render steps) ∧
      place inner line ∈ Text.splitLines (CodeStep.render steps ++ "\n") := by
  have hmem : place inner line ∈ (run {} steps).lines := by
    rw [lines_run]
    exact List.mem_map.mpr ⟨_, h, by rw [Int.zero_add]⟩
  have hplaced := isLine_place (inner : Int) hline
  constructor
  · exact Text.mem_splitLines_intercalate hplaced (by rwa [Ne, place_eq_empty_iff]) hmem
  · obtain ⟨before, after, hlines⟩ := List.append_of_mem hmem
    have hsplit : (run {} steps).lines = before ++ [place inner line] ++ after := by simp [hlines]
    rw [CodeStep.render, code, hsplit]
    exact (Text.isInfix_splitLines (by simpa using hplaced)).subset (List.mem_singleton_self _)

end CodeBlock

/-! ## Declarations in source files -/

namespace SourceFile

variable {f : SourceFile} {s : Section} {declaration : String}

/-- A declaration of a source file is a step, one level deep, of building the
file. -/
theorem isInfix_addedBy_steps (h : declaration ∈ f.sections s) :
    (Text.splitLines declaration).map (1, ·) <:+: CodeStep.addedBy f.steps := by
  have hsection : CodeStep.lines declaration ∈ f.sectionSteps s := by
    rw [sectionSteps, if_neg (by simpa using List.ne_nil_of_mem h)]
    exact List.mem_append_right _ (List.mem_flatMap.mpr ⟨declaration, h, by simp⟩)
  have hbody : CodeStep.lines declaration ∈ Section.all.flatMap f.sectionSteps :=
    List.mem_flatMap.mpr ⟨s, by cases s <;> decide, hsection⟩
  have hdeeper := (CodeStep.isInfix_addedBy hbody).map fun l : Nat × String => (l.1 + 1, l.2)
  rw [CodeStep.added, List.map_map] at hdeeper
  exact hdeeper.trans (CodeStep.isInfix_addedBy (s := .indented _) (by simp [steps]))

/-- **What a source file makes of a declaration**: its lines are lines of the
file, one level deeper. -/
theorem isInfix_splitLines_text (hopen : f.rendered = none) (h : declaration ∈ f.sections s) :
    (Text.splitLines declaration).map (CodeBlock.place 1) <:+: Text.splitLines f.text := by
  have hadded := (isInfix_addedBy_steps h).map fun l => CodeBlock.place (0 + l.1) l.2
  rw [← CodeBlock.lines_run, List.map_map] at hadded
  obtain ⟨before, after, hlines⟩ := hadded
  have htext : f.text = "\n".intercalate
      (before ++ (Text.splitLines declaration).map (CodeBlock.place 1) ++ after) ++ "\n" := by
    rw [text, hopen, Option.getD_none, CodeStep.render, CodeBlock.code]
    exact congrArg (fun lines => "\n".intercalate lines ++ "\n") hlines.symm
  rw [htext]
  exact Text.isInfix_splitLines (List.forall_mem_map.mpr fun line hline =>
    CodeBlock.isLine_place _ (Text.isLine_of_mem_splitLines hline))

/-- **A single line of a declaration** is a line of the source file, one level
deeper, whatever the other lines are. -/
theorem indentation_append_mem {steps : List CodeStep} {line : String} {depth : Nat}
    (hopen : f.rendered = none)
    (h : CodeStep.render steps ∈ f.sections s ∨ CodeStep.render steps ++ "\n" ∈ f.sections s)
    (hline : Text.IsLine line) (hne : line ≠ "") (hadded : (depth, line) ∈ CodeStep.addedBy steps) :
    CodeBlock.indentation (depth + 1 : Nat) ++ line ∈ Text.splitLines f.text := by
  have hplaced : CodeBlock.place 1 (CodeBlock.place depth line) =
      CodeBlock.indentation (depth + 1 : Nat) ++ line := by
    rw [CodeBlock.place_place (by decide), CodeBlock.place, if_neg hne, Int.natCast_add,
      Int.add_comm]
    rfl
  obtain ⟨hrender, hfeed⟩ := CodeBlock.place_mem_splitLines_render hline hne hadded
  rw [← hplaced]
  rcases h with h | h
  · exact (isInfix_splitLines_text hopen h).subset (List.mem_map.mpr ⟨_, hrender, rfl⟩)
  · exact (isInfix_splitLines_text hopen h).subset (List.mem_map.mpr ⟨_, hfeed, rfl⟩)

end SourceFile

/-! ## The steps of a declaration -/

/-- A later line of a documentation comment is on one line. -/
theorem isLine_docLine {line : String} (h : Text.IsLine line) : Text.IsLine (docLine line) := by
  unfold docLine
  split
  · decide
  · exact Text.isLine_append.mpr ⟨by decide, h⟩

/-- **A documentation comment is lines**, the last one with a line feed behind
it. -/
theorem docComment_eq_empty_or (docs : Option String) :
    docComment docs = "" ∨ ∃ texts, texts ≠ [] ∧ (∀ text ∈ texts, Text.IsLine text) ∧
      docComment docs = "\n".intercalate texts ++ "\n" := by
  have hlines : ∀ line ∈ Text.splitLines (Text.stripped (docs.getD "")), Text.IsLine line :=
    fun line => Text.isLine_of_mem_splitLines
  unfold docComment
  split
  · exact .inl rfl
  · next first rest hsplit =>
    rw [hsplit] at hlines
    refine .inr ⟨("/** " ++ first) :: rest.map docLine ++ [" */"], by simp, ?_, rfl⟩
    refine List.forall_mem_append.mpr ⟨List.forall_mem_cons.mpr ⟨?_, ?_⟩, by decide⟩
    · exact Text.isLine_append.mpr ⟨by decide, hlines first List.mem_cons_self⟩
    · exact List.forall_mem_map.mpr fun line hline =>
        isLine_docLine (hlines line (List.mem_cons_of_mem _ hline))

/-- What stands below a documentation comment stands below its lines. -/
theorem docComment_append_intercalate (docs : Option String) {texts : List String}
    (hne : texts ≠ []) :
    docComment docs ++ "\n".intercalate texts =
      "\n".intercalate (Text.splitLines (docComment docs) ++ texts) := by
  rcases docComment_eq_empty_or docs with hempty | ⟨lines, hlines, hall, heq⟩
  · rw [hempty, String.empty_append]
    rfl
  · rw [heq, Text.splitLines_intercalate_feed hall hlines,
      String.intercalate_append_of_ne_nil hlines hne]

/-- **A declared type step by step.** -/
def TypeDeclaration.steps (d : TypeDeclaration) : List CodeStep :=
  .lines (docComment d.docs) :: match d.body with
  | .record fields =>
    [.line Marker.record.render, .line ("final case class " ++ d.name ++ "(" ++
      renderParams (fields.map Parameter.texts) ++ ")")]
  | .variant cases =>
    [.line Marker.variant.render, .line ("sealed trait " ++ d.name)] ++
      container ("object " ++ d.name) (cases.map fun c => .line (c.line d.name))
  | .flags storage names =>
    [.line (Marker.flags (.number names.length)).render] ++
      container ("final case class " ++ d.name ++ "(value: " ++ storage.type ++ ")")
        (storage.operations d.name) ++
      container ("object " ++ d.name) (storage.constants d.name names)
  | .aliasOf target => [.line ("type " ++ d.name ++ " = " ++ target.text)]
  | .resource identity raw methods companion =>
    [.line (Marker.importedResource identity raw).render] ++
      container ("trait " ++ d.name) ((traitMembers methods).map .lines) ++
      container ("object " ++ d.name) (companion.map fun m => .lines (m.text d.name))

/-- The marker of a function of its own. -/
def FreeFunction.marker (f : FreeFunction) : Marker :=
  match f.direction with
  | .imported => .importedFunction f.identity f.signature.raw
  | .exported => .exportedFunction f.identity f.signature.raw

/-- The last line of a function of its own. -/
def FreeFunction.signatureLine (f : FreeFunction) : String :=
  match f.direction with
  | .imported => f.signature.native
  | .exported => renderSignature f.signature.name (f.signature.params.map Parameter.texts)
      f.signature.result.text

/-- **A function of its own step by step.** -/
def FreeFunction.steps (f : FreeFunction) : List CodeStep :=
  [.lines (docComment f.signature.docs), .line f.marker.render, .line f.signatureLine]

/-- Single lines are added as they are. -/
theorem CodeStep.addedBy_map_line (texts : List String) :
    addedBy (texts.map line) = texts.map (0, ·) := by
  induction texts with
  | nil => rfl
  | cons text texts ih => rw [List.map_cons, addedBy, ih]; rfl

/-- The text of a documentation comment with lines below it. -/
theorem render_docComment_cons (docs : Option String) (texts : List String) (hne : texts ≠ []) :
    CodeStep.render (.lines (docComment docs) :: texts.map CodeStep.line) =
      docComment docs ++ "\n".intercalate texts := by
  rw [docComment_append_intercalate docs hne, CodeStep.render, CodeBlock.code, CodeBlock.lines_run,
    CodeStep.addedBy, CodeStep.addedBy_map_line]
  simp [CodeStep.added, Function.comp_def]

/-- **The text of a declared type** is the text of its steps. -/
theorem TypeDeclaration.text_eq (d : TypeDeclaration) : d.text = CodeStep.render d.steps := by
  unfold text steps
  cases d.body with
  | record fields =>
    have hlines := render_docComment_cons d.docs [Marker.record.render,
      "final case class " ++ d.name ++ "(" ++ renderParams (fields.map Parameter.texts) ++ ")"]
      (by simp)
    rw [String.intercalate_cons_cons, String.intercalate_singleton] at hlines
    refine Eq.trans ?_ hlines.symm
    simp only [← String.append_assoc]
  | aliasOf target =>
    have hlines := render_docComment_cons d.docs
      ["type " ++ d.name ++ " = " ++ target.text] (by simp)
    rw [String.intercalate_singleton] at hlines
    refine Eq.trans ?_ hlines.symm
    simp only [← String.append_assoc]
  | variant _ | flags _ _ | resource _ _ _ _ => rfl

/-- **The text of a function of its own** is the text of its steps with a line
feed behind it. -/
theorem FreeFunction.text_eq (f : FreeFunction) : f.text = CodeStep.render f.steps ++ "\n" := by
  have hlines := render_docComment_cons f.signature.docs
    [f.marker.render, f.signatureLine] (by simp)
  rw [String.intercalate_cons_cons, String.intercalate_singleton] at hlines
  refine Eq.trans ?_ (congrArg (· ++ "\n") hlines).symm
  unfold text marker signatureLine Signature.native
  cases f.direction
  all_goals
    dsimp only [renderImported, renderExported]
    simp only [← String.append_assoc]

/-! ## Two levels of building -/

variable {steps : List CodeStep}

/-- **What steps add is in a source file** that has their text as a
declaration, one level deeper. -/
theorem SourceFile.isInfix_lines_run {f : SourceFile} {s : Section}
    (hsteps : CodeStep.AllUnbroken steps)
    (hlast : (CodeBlock.run {} steps).lines.getLast? ≠ some "") (hopen : f.rendered = none)
    (h : CodeStep.render steps ∈ f.sections s ∨ CodeStep.render steps ++ "\n" ∈ f.sections s) :
    (CodeBlock.run ⟨1, []⟩ steps).lines <:+: Text.splitLines f.text := by
  rw [← CodeBlock.map_place_lines_run (by decide)]
  by_cases hne : (CodeBlock.run {} steps).lines = []
  · rw [hne]
    exact List.nil_infix
  · rcases h with h | h
    · rw [← CodeBlock.splitLines_render hsteps hlast]
      exact isInfix_splitLines_text hopen h
    · rw [← CodeBlock.splitLines_render_feed hsteps hne]
      exact isInfix_splitLines_text hopen h

/-- **Building in two levels is building in one.** Where no single line of the
steps has a boundary in it, and the last line that they add is not empty,
setting their text into a block adds the lines that the steps would add there
themselves, and the depth is as it was. So a source file that has their text
as a declaration, with or without a line feed behind it, has the lines that
they add one level deep, together and in their order; and the declarations of
a module are such texts. -/
theorem CodeBlock.addLines_render (hsteps : CodeStep.AllUnbroken steps)
    (hlast : (run {} steps).lines.getLast? ≠ some "") :
    (∀ b : CodeBlock, 0 ≤ b.depth →
      b.addLines (CodeStep.render steps) = b.run steps ∧ (b.run steps).depth = b.depth) ∧
    (∀ (f : SourceFile) (s : Section), f.rendered = none →
      CodeStep.render steps ∈ f.sections s ∨ CodeStep.render steps ++ "\n" ∈ f.sections s →
      (run ⟨1, []⟩ steps).lines <:+: Text.splitLines f.text) ∧
    ∀ (m : Module) (header : Bool),
      (∃ d ∈ m.types ++ m.resources, d.steps = steps) ∨ (∃ f ∈ m.functions, f.steps = steps) →
      (run ⟨1, []⟩ steps).lines <:+: Text.splitLines (m.sourceFile header).text := by
  refine ⟨fun b hb => ?_, fun f s hopen h => SourceFile.isInfix_lines_run hsteps hlast hopen h,
    fun m header h => ?_⟩
  · have hadded := run_eq b steps
    have hlines : b.lines ++ (run {} steps).lines.map (place b.depth) = (b.run steps).lines := by
      rw [hadded, map_place_lines_run hb, lines_run]
    have hdepth : (b.run steps).depth = b.depth := by rw [hadded]
    refine ⟨?_, hdepth⟩
    rw [addLines, splitLines_render hsteps hlast, hlines, ← hdepth]
  · rcases h with ⟨d, hd, rfl⟩ | ⟨f, hf, rfl⟩
    · rcases List.mem_append.mp hd with hd | hd
      · refine SourceFile.isInfix_lines_run (s := .types) hsteps hlast rfl (.inl ?_)
        exact List.mem_map.mpr ⟨d, hd, d.text_eq⟩
      · refine SourceFile.isInfix_lines_run (s := .resources) hsteps hlast rfl (.inl ?_)
        exact List.mem_map.mpr ⟨d, hd, d.text_eq⟩
    · refine SourceFile.isInfix_lines_run (s := .functions) hsteps hlast rfl (.inr ?_)
      exact List.mem_map.mpr ⟨f, hf, f.text_eq⟩

/-- A variant with documentation that has an empty line. -/
def shapeDeclaration : TypeDeclaration where
  id := 0
  name := "Shape"
  docs := some "A shape.\n\nIt is drawn."
  body := .variant [⟨"Dot", none⟩, ⟨"Line", none⟩]

/-- The module that declares it. -/
def shapeModule : Module where
  key := .world .imported
  location := ⟨"base", "w", ["base", "w"], "package.scala", .imported⟩
  docs := none
  types := [shapeDeclaration]

/-- A declaration in a block that is two levels deep, and in its module. -/
theorem CodeBlock.addLines_render_shape :
    CodeStep.AllUnbroken shapeDeclaration.steps ∧
    (run {} shapeDeclaration.steps).lines.getLast? ≠ some "" ∧
    addLines ⟨2, ["x"]⟩ (CodeStep.render shapeDeclaration.steps) =
      ⟨2, ["x", "    /** A shape.", "     *", "     *  It is drawn.", "     */",
        "    @scala.scalajs.wit.annotation.WitVariant", "    sealed trait Shape",
        "    object Shape \x7b", "      case object Dot extends Shape",
        "      case object Line extends Shape", "    \x7d"]⟩ ∧
    (run ⟨1, []⟩ shapeDeclaration.steps).lines <:+:
      Text.splitLines (shapeModule.sourceFile true).text := by
  have hsteps : CodeStep.AllUnbroken shapeDeclaration.steps := by decide +kernel
  have hlast : (run {} shapeDeclaration.steps).lines.getLast? ≠ some "" := by decide +kernel
  obtain ⟨htwice, -, hmodule⟩ := addLines_render hsteps hlast
  refine ⟨hsteps, hlast, (htwice ⟨2, ["x"]⟩ (by decide)).1.trans ?_,
    hmodule shapeModule true (.inl ⟨shapeDeclaration, by simp [shapeModule], rfl⟩)⟩
  decide +kernel

end ComponentBindings
