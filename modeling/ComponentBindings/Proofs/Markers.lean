import ComponentBindings.Proofs.Blocks

/-!
# Markers can be read back

The runtime reads the markers of the generated code, so what a marker says has
to be in its text. A reader goes over the text from left to right
(`Marker.Reading`). It knows that an argument in quotes ends at a quote, that
a backslash in it stands before a backslash or a quote which is part of the
argument, and that a comma and a space part two arguments; nothing else. It
gets back the arguments that the text was made of (`Marker.read?_render`), for
the texts in them cannot end an argument: their quotes and backslashes are
escaped, and inside quotes a comma, a space or a parenthesis is a character
like any other.

A marker is a line of its own in a source file. It stays one as long as
nothing in it ends a line, which depends on its arguments alone, and then it
is in the file as it was made, behind the indentation of its declaration.
-/

namespace ComponentBindings

namespace Marker

/-! ## Reading arguments -/

/-- Where a reader of arguments is. -/
inductive Stage where
  /-- Before an argument. -/
  | before
  /-- Inside the quotes of an argument. -/
  | quoted (text : List Char)
  /-- Behind a backslash inside the quotes of an argument. -/
  | escaped (text : List Char)
  /-- In an argument without quotes. -/
  | word (text : List Char)
  /-- Behind the closing quote of an argument. -/
  | behind
  /-- Behind the comma between two arguments. -/
  | parted
  /-- Behind the parenthesis that closes the arguments. -/
  | closed
  /-- Where no arguments can be. -/
  | lost
  deriving DecidableEq, Repr

/-- **What a reader of arguments has read**, and where it is. -/
structure Reading where
  /-- The arguments that are complete. -/
  arguments : List Argument
  /-- Where the reader is. -/
  stage : Stage

/-- The number that a word of digits is. -/
def digitsNumber? (word : List Char) : Option Nat :=
  if word ≠ [] ∧ word.all Char.isDigit then some (Nat.ofDigitChars 10 word 0) else none

/-- The argument that a word without quotes is. -/
def wordArgument? : List Char → Option Argument
  | ['T', 'r', 'u', 'e'] => some (.truth true)
  | ['F', 'a', 'l', 's', 'e'] => some (.truth false)
  | '-' :: digits => (digitsNumber? digits).map fun n => .number (-n)
  | digits => (digitsNumber? digits).map fun n => .number n

namespace Reading

/-- The reading with one more argument, if there is one. -/
def complete (r : Reading) (argument : Option Argument) (stage : Stage) : Reading :=
  match argument with
  | some argument => ⟨r.arguments ++ [argument], stage⟩
  | none => ⟨r.arguments, .lost⟩

/-- **Reading on by a character.** -/
def next (r : Reading) (c : Char) : Reading :=
  match r.stage with
  | .before => { r with stage := if c = '"' then .quoted [] else .word [c] }
  | .quoted text =>
    if c = '\\' then { r with stage := .escaped text }
    else if c = '"' then r.complete (some (.text (String.ofList text))) .behind
    else { r with stage := .quoted (text ++ [c]) }
  | .escaped text =>
    { r with stage := if c = '\\' ∨ c = '"' then .quoted (text ++ [c]) else .lost }
  | .word text =>
    if c = ',' then r.complete (wordArgument? text) .parted
    else if c = ')' then r.complete (wordArgument? text) .closed
    else { r with stage := .word (text ++ [c]) }
  | .behind =>
    { r with stage := if c = ',' then .parted else if c = ')' then .closed else .lost }
  | .parted => { r with stage := if c = ' ' then .before else .lost }
  | .closed | .lost => { r with stage := .lost }

/-- Reading on by a text. -/
def run (r : Reading) (cs : List Char) : Reading := cs.foldl next r

@[simp] theorem run_nil (r : Reading) : r.run [] = r := rfl

@[simp] theorem run_cons (r : Reading) (c : Char) (cs : List Char) :
    r.run (c :: cs) = (r.next c).run cs := rfl

@[simp] theorem run_append (r : Reading) (cs more : List Char) :
    r.run (cs ++ more) = (r.run cs).run more := List.foldl_append

variable {arguments : List Argument}

/-- **Inside quotes a text is read as it was before it was escaped.** -/
theorem run_escapeArgument (text cs : List Char) :
    (Reading.mk arguments (.quoted text)).run (cs.flatMap escapeArgument) =
      ⟨arguments, .quoted (text ++ cs)⟩ := by
  induction cs generalizing text with
  | nil => rw [List.flatMap_nil, run_nil, List.append_nil]
  | cons c cs ih =>
    have hfirst : (Reading.mk arguments (.quoted text)).run (escapeArgument c) =
        ⟨arguments, .quoted (text ++ [c])⟩ := by
      unfold escapeArgument
      by_cases hslash : c = '\\'
      · simp [hslash, next]
      · by_cases hquote : c = '"'
        · simp [hquote, next]
        · simp [hslash, hquote, next]
    rw [List.flatMap_cons, run_append, hfirst, ih, List.append_assoc]
    rfl

/-- A word goes on as long as nothing ends it. -/
theorem run_word {cs : List Char} (h : ∀ c ∈ cs, c ≠ ',' ∧ c ≠ ')') (text : List Char) :
    (Reading.mk arguments (.word text)).run cs = ⟨arguments, .word (text ++ cs)⟩ := by
  induction cs generalizing text with
  | nil => rw [run_nil, List.append_nil]
  | cons c cs ih =>
    obtain ⟨⟨hcomma, hclose⟩, hcs⟩ := List.forall_mem_cons.mp h
    have hnext : (Reading.mk arguments (.word text)).next c = ⟨arguments, .word (text ++ [c])⟩ := by
      simp [next, hcomma, hclose]
    rw [run_cons, hnext, ih hcs, List.append_assoc]
    rfl

end Reading

/-! ## What is written is read -/

/-- The digits of a natural are its digits. -/
theorem digitsNumber?_repr (n : Nat) : digitsNumber? n.repr.toList = some n := by
  have hdigits : ∀ c ∈ Nat.toDigits 10 n, c.isDigit = true := fun c hc =>
    Nat.isDigit_of_mem_toDigits (by decide) (by decide) hc
  rw [Nat.toList_repr, digitsNumber?, if_pos ⟨Nat.toDigits_ne_nil, List.all_eq_true.mpr hdigits⟩,
    Nat.ofDigitChars_ten_toDigits]

/-- A natural is written in digits, and there is one. -/
theorem exists_digits (n : Nat) :
    ∃ c cs, n.repr.toList = c :: cs ∧ c.isDigit = true ∧ ∀ d ∈ cs, d.isDigit = true := by
  obtain ⟨c, cs, hlist⟩ := List.exists_cons_of_ne_nil (Nat.toDigits_ne_nil (n := n) (b := 10))
  have hdigits : ∀ d ∈ Nat.toDigits 10 n, d.isDigit = true := fun d hd =>
    Nat.isDigit_of_mem_toDigits (by decide) (by decide) hd
  rw [hlist, List.forall_mem_cons] at hdigits
  exact ⟨c, cs, by rw [Nat.toList_repr, hlist], hdigits⟩

/-- **A number is read as it is written.** -/
theorem wordArgument?_toString (value : Int) :
    wordArgument? (toString value).toList = some (.number value) := by
  cases value with
  | ofNat n =>
    show wordArgument? n.repr.toList = some (.number n)
    have hread := digitsNumber?_repr n
    obtain ⟨c, cs, hlist, hc, -⟩ := exists_digits n
    rw [hlist] at hread ⊢
    unfold wordArgument?
    split
    · next heq => rw [(List.cons.inj heq).1] at hc; cases hc
    · next heq => rw [(List.cons.inj heq).1] at hc; cases hc
    · next heq => rw [(List.cons.inj heq).1] at hc; cases hc
    · rw [hread]
      rfl
  | negSucc n =>
    have hminus : (toString (Int.negSucc n)).toList = '-' :: n.succ.repr.toList :=
      String.toList_append
    rw [hminus, wordArgument?, digitsNumber?_repr]
    rfl

/-- An argument without quotes is a word: it does not start with a quote, and
neither a comma nor a parenthesis is in it. -/
theorem exists_word {argument : Argument} (h : ∀ text, argument ≠ .text text) :
    ∃ c cs, argument.render.toList = c :: cs ∧ c ≠ '"' ∧ (∀ d ∈ cs, d ≠ ',' ∧ d ≠ ')') ∧
      wordArgument? (c :: cs) = some argument := by
  have hdigit : ∀ d : Char, d.isDigit = true → d ≠ '"' ∧ d ≠ ',' ∧ d ≠ ')' := by
    refine fun d hd => ⟨?_, ?_, ?_⟩ <;> rintro rfl <;> cases hd
  cases argument with
  | text text => exact absurd rfl (h text)
  | truth value =>
    cases value with
    | false => exact ⟨'F', ['a', 'l', 's', 'e'], rfl, by decide, by simp, rfl⟩
    | true => exact ⟨'T', ['r', 'u', 'e'], rfl, by decide, by simp, rfl⟩
  | number value =>
    have hread := wordArgument?_toString value
    cases value with
    | ofNat n =>
      obtain ⟨c, cs, hlist, hc, hcs⟩ := exists_digits n
      have hrender : (toString (Int.ofNat n)).toList = c :: cs := hlist
      rw [hrender] at hread
      exact ⟨c, cs, hrender, (hdigit c hc).1, fun d hd => (hdigit d (hcs d hd)).2, hread⟩
    | negSucc n =>
      obtain ⟨c, cs, hlist, hc, hcs⟩ := exists_digits n.succ
      have hrender : (toString (Int.negSucc n)).toList = '-' :: c :: cs :=
        String.toList_append.trans (congrArg ('-' :: ·) hlist)
      rw [hrender] at hread
      refine ⟨'-', c :: cs, hrender, by decide, fun d hd => ?_, hread⟩
      exact (hdigit d ((List.mem_cons.mp hd).elim (fun heq => heq ▸ hc) (hcs d))).2

namespace Reading

variable {arguments : List Argument}

/-- **An argument is read**, up to the comma or the parenthesis behind it. -/
theorem run_render (argument : Argument) {c : Char} {stage : Stage}
    (hc : c = ',' ∧ stage = .parted ∨ c = ')' ∧ stage = .closed) :
    (Reading.mk arguments .before).run (argument.render.toList ++ [c]) =
      ⟨arguments ++ [argument], stage⟩ := by
  by_cases htext : ∃ text, argument = .text text
  · obtain ⟨text, rfl⟩ := htext
    have hrender : (Argument.text text).render.toList =
        '"' :: text.toList.flatMap escapeArgument ++ ['"'] := by
      rw [← escapedText_eq]
      exact String.toList_ofList
    have hopen : (Reading.mk arguments .before).next '"' = ⟨arguments, .quoted []⟩ := rfl
    have hclose : (Reading.mk arguments (.quoted text.toList)).next '"' =
        ⟨arguments ++ [.text text], .behind⟩ := by
      simp [next, complete]
    rw [hrender, List.cons_append, List.cons_append, run_cons, hopen, run_append, run_append,
      run_escapeArgument, List.nil_append, run_cons, run_nil, run_cons, run_nil, hclose]
    rcases hc with ⟨rfl, rfl⟩ | ⟨rfl, rfl⟩ <;> rfl
  · obtain ⟨first, cs, hrender, hquote, hcs, hword⟩ := exists_word fun text heq => htext ⟨text, heq⟩
    have hopen : (Reading.mk arguments .before).next first = ⟨arguments, .word [first]⟩ := by
      simp [next, hquote]
    rw [hrender, List.cons_append, run_cons, hopen, run_append, run_word hcs, run_cons, run_nil,
      List.singleton_append]
    rcases hc with ⟨rfl, rfl⟩ | ⟨rfl, rfl⟩ <;> simp [next, complete, hword]

/-- **Arguments are read**, one after the other, up to the parenthesis that
closes them. -/
theorem run_renderAll {more : List Argument} (hne : more ≠ []) :
    (Reading.mk arguments .before).run
        ((", ".intercalate (more.map Argument.render)).toList ++ [')']) =
      ⟨arguments ++ more, .closed⟩ := by
  induction more generalizing arguments with
  | nil => exact absurd rfl hne
  | cons argument more ih =>
    cases more with
    | nil =>
      rw [List.map_singleton, String.intercalate_singleton]
      exact run_render argument (.inr ⟨rfl, rfl⟩)
    | cons other more =>
      have hcut : (", ".intercalate ((argument :: other :: more).map Argument.render)).toList =
          (argument.render.toList ++ [',']) ++
            ' ' :: (", ".intercalate ((other :: more).map Argument.render)).toList := by
        simp [String.intercalate_cons_cons]
      have hspace : (Reading.mk (arguments ++ [argument]) .parted).next ' ' =
          ⟨arguments ++ [argument], .before⟩ := rfl
      rw [hcut, List.append_assoc, run_append, run_render argument (.inl ⟨rfl, rfl⟩),
        List.cons_append, run_cons, hspace, ih (by simp), List.append_assoc]
      rfl

end Reading

/-- What stands before the name of a marker. -/
def sign : String := "@" ++ runtimePackage ++ ".annotation."

/-- **The marker that a text is.** Its name goes up to the first parenthesis,
and its arguments are read from there on. -/
def read? (text : String) : Option Marker :=
  let cs := text.toList.drop sign.length
  if !sign.toList.isPrefixOf text.toList then none
  else match cs.dropWhile (· ≠ '(') with
  | [] => some ⟨String.ofList cs, []⟩
  | _ :: inside =>
    match (Reading.mk [] .before).run inside with
    | ⟨arguments, .closed⟩ => some ⟨String.ofList (cs.takeWhile (· ≠ '(')), arguments⟩
    | _ => none

/-- A marker as it is written, without what stands before the name. -/
theorem toList_render (a : Marker) :
    a.render.toList = sign.toList ++ (a.name.toList ++ if a.arguments = [] then [] else
      '(' :: ((", ".intercalate (a.arguments.map Argument.render)).toList ++ [')'])) := by
  have hclose : ")".toList = [')'] := rfl
  have hopen : "(".toList = ['('] := rfl
  rw [render, sign]
  cases a.arguments with
  | nil => simp
  | cons argument more => simp [hclose, hopen]

/-- **A marker whose name has no parenthesis is read as it was written.** -/
theorem read?_eq {a : Marker} (hname : '(' ∉ a.name.toList) : read? a.render = some a := by
  have hwhile : ∀ c ∈ a.name.toList, (decide (c ≠ '(')) = true := fun c hc =>
    decide_eq_true fun heq => hname (heq ▸ hc)
  have hsign : sign.toList.isPrefixOf a.render.toList = true := by
    rw [toList_render, List.isPrefixOf_iff_prefix]
    exact List.prefix_append _ _
  have hdrop : a.render.toList.drop sign.length = a.name.toList ++ (if a.arguments = [] then [] else
      '(' :: ((", ".intercalate (a.arguments.map Argument.render)).toList ++ [')'])) := by
    rw [toList_render]
    exact List.drop_left
  rw [read?, hsign, hdrop]
  obtain ⟨name, arguments⟩ := a
  dsimp only at hwhile ⊢
  by_cases hnone : arguments = []
  · have hend : (name.toList ++ []).dropWhile (· ≠ '(') = [] :=
      List.dropWhile_append_of_pos hwhile
    rw [List.append_nil] at hend
    rw [if_pos hnone, List.append_nil, hend, hnone, String.ofList_toList]
    rfl
  · have hopen (more : List Char) : ('(' :: more).dropWhile (· ≠ '(') = '(' :: more ∧
        ('(' :: more).takeWhile (· ≠ '(') = [] := ⟨rfl, rfl⟩
    rw [if_neg hnone, List.dropWhile_append_of_pos hwhile, List.takeWhile_append_of_pos hwhile,
      (hopen _).1, (hopen _).2, List.append_nil, String.ofList_toList]
    dsimp only
    rw [Reading.run_renderAll hnone]
    rfl

end Marker

/-! ## Markers on lines -/

/-- **An argument that is on one line.** -/
def Argument.IsLine : Argument → Prop
  | .text value => Text.IsLine value
  | .number _ | .truth _ => True

instance : DecidablePred Argument.IsLine := fun argument =>
  match argument with
  | .text value => inferInstanceAs (Decidable (Text.IsLine value))
  | .number _ | .truth _ => inferInstanceAs (Decidable True)

/-- A digit ends no line. -/
theorem Text.isLineBoundary_of_isDigit {c : Char} (h : c.isDigit = true) :
    isLineBoundary c = false := by
  have hrange : 48 ≤ c.toNat ∧ c.toNat ≤ 57 := by
    simpa [Char.isDigit, UInt32.le_iff_toNat_le] using h
  simp [isLineBoundary, inRanges]
  omega

/-- Escaping a character adds nothing that ends a line. -/
theorem forall_mem_escapeArgument {c : Char} :
    (∀ d ∈ escapeArgument c, Text.isLineBoundary d = false) ↔ Text.isLineBoundary c = false := by
  have hslash : Text.isLineBoundary '\\' = false := rfl
  unfold escapeArgument
  split <;> simp [hslash]

/-- **An argument is written on one line** exactly if it is on one: escaping
adds backslashes, and a number has digits. -/
theorem Argument.isLine_render {argument : Argument} :
    Text.IsLine argument.render ↔ argument.IsLine := by
  cases argument with
  | text value =>
    have hquote : Text.isLineBoundary '"' = false := rfl
    simp only [Text.IsLine, IsLine, render, escapedText_eq, String.toList_ofList, List.cons_append,
      List.forall_mem_cons, List.forall_mem_append, List.forall_mem_flatMap,
      forall_mem_escapeArgument, hquote]
    simp
  | truth value => cases value <;> exact iff_of_true (by decide) trivial
  | number value =>
    refine iff_of_true (fun c hc => ?_) trivial
    have hdigits (n : Nat) : ∀ d ∈ n.repr.toList, Text.isLineBoundary d = false := by
      obtain ⟨first, cs, hlist, hfirst, hcs⟩ := Marker.exists_digits n
      rw [hlist, List.forall_mem_cons]
      exact ⟨Text.isLineBoundary_of_isDigit hfirst,
        fun d hd => Text.isLineBoundary_of_isDigit (hcs d hd)⟩
    cases value with
    | ofNat n => exact hdigits n c hc
    | negSucc n =>
      have hlist : (toString (Int.negSucc n)).toList = '-' :: n.succ.repr.toList :=
        String.toList_append
      rw [render, hlist] at hc
      rcases List.mem_cons.mp hc with rfl | hc
      · rfl
      · exact hdigits _ c hc

/-- Texts with commas between them are on one line exactly if each of them
is. -/
theorem Text.isLine_intercalate {texts : List String} :
    IsLine (", ".intercalate texts) ↔ ∀ text ∈ texts, IsLine text := by
  induction texts with
  | nil => exact iff_of_true (by decide) (fun _ h => absurd h List.not_mem_nil)
  | cons text texts ih =>
    cases texts with
    | nil => simp
    | cons other texts =>
      have hcomma : IsLine ", " := by decide
      rw [String.intercalate_cons_cons, isLine_append, isLine_append, ih, and_iff_left hcomma]
      exact List.forall_mem_cons.symm

namespace Marker

/-- **A marker is on one line** exactly if its name and its arguments are. -/
theorem isLine_render {a : Marker} :
    Text.IsLine a.render ↔ Text.IsLine a.name ∧ ∀ argument ∈ a.arguments, argument.IsLine := by
  have hsign : Text.IsLine sign := by decide
  have hopen : Text.IsLine "(" := by decide
  have hclose : Text.IsLine ")" := by decide
  have harguments : Text.IsLine (if a.arguments.isEmpty then ""
      else "(" ++ ", ".intercalate (a.arguments.map Argument.render) ++ ")") ↔
        ∀ argument ∈ a.arguments, argument.IsLine := by
    cases harg : a.arguments with
    | nil => exact iff_of_true (by decide) (fun _ h => absurd h List.not_mem_nil)
    | cons argument more =>
      rw [List.isEmpty_cons, if_neg (by decide), Text.isLine_append, Text.isLine_append,
        Text.isLine_intercalate, List.forall_mem_map]
      simp only [Argument.isLine_render, hopen, hclose, true_and, and_true]
  rw [render, ← sign, Text.isLine_append, Text.isLine_append, harguments]
  simp only [hsign, true_and]

/-- A marker is not empty. -/
theorem render_ne_empty (a : Marker) : a.render ≠ "" := by
  intro heq
  have hlist := toList_render a
  rw [heq] at hlist
  simp [sign] at hlist

end Marker

/-! ## Markers in source files -/

/-- The marker in the companion of a resource. -/
def CompanionMember.marker : CompanionMember → Marker
  | .constructor _ _ => .resourceConstructor
  | .static s => .resourceStatic s.raw

/-- **The markers of a declared type**, each with how much deeper than the
declaration it stands. -/
def TypeDeclaration.markers (d : TypeDeclaration) : List (Nat × Marker) :=
  match d.body with
  | .record _ => [(0, .record)]
  | .variant _ => [(0, .variant)]
  | .flags _ names => [(0, .flags (.number names.length))]
  | .aliasOf _ => []
  | .resource identity raw methods companion =>
    (0, .importedResource identity raw) :: (methods.map fun m => (1, .resourceMethod m.raw)) ++
      (1, .resourceDrop) :: companion.map fun m => (1, m.marker)

/-- **The markers of a module**, each with how deep it stands. -/
def Module.markers (m : Module) : List (Nat × Marker) :=
  (match m.location.direction with
    | .imported => []
    | .exported => [(0, .exportedInterface)]) ++
  ((m.types ++ m.resources).flatMap fun d => d.markers.map fun a => (a.1 + 1, a.2)) ++
  m.functions.map fun f => (1, f.marker)

variable {a : Marker} {line : String}

/-- A marker with a comment before it and a line behind it is split off. -/
theorem render_mem_splitLines (h : Text.IsLine a.render) (docs : Option String) (rest : String) :
    a.render ∈ Text.splitLines (docComment docs ++ a.render ++ "\n" ++ rest) := by
  have htext : docComment docs ++ a.render ++ "\n" ++ rest =
      "\n".intercalate (Text.splitLines (docComment docs) ++ [a.render, rest]) := by
    rw [← docComment_append_intercalate docs (by simp), String.intercalate_cons_cons,
      String.intercalate_singleton]
    simp only [← String.append_assoc]
  rw [htext]
  exact Text.mem_splitLines_intercalate h a.render_ne_empty (by simp)

/-- What is added inside a container stands one level deeper than it. -/
theorem mem_addedBy_container (opener : String) {text : String} {members : List CodeStep}
    (hmem : CodeStep.lines text ∈ members) (hline : line ∈ Text.splitLines text) :
    (1, line) ∈ CodeStep.addedBy (container opener members) := by
  have hinside : (0, line) ∈ CodeStep.addedBy members :=
    (CodeStep.isInfix_addedBy hmem).subset (List.mem_map.mpr ⟨line, hline, rfl⟩)
  refine (CodeStep.isInfix_addedBy (s := .indented members) (by simp [container])).subset ?_
  exact List.mem_map.mpr ⟨_, hinside, rfl⟩

/-- **The markers of a declared type are lines** that its steps add. -/
theorem TypeDeclaration.mem_addedBy_of_mem_markers {d : TypeDeclaration} {depth : Nat}
    (hmarker : (depth, a) ∈ d.markers) (h : Text.IsLine a.render) :
    (depth, a.render) ∈ CodeStep.addedBy d.steps := by
  have hfirst : CodeStep.line a.render ∈ d.steps → (0, a.render) ∈ CodeStep.addedBy d.steps :=
    fun hmem => (CodeStep.isInfix_addedBy hmem).subset (List.mem_singleton_self _)
  unfold markers at hmarker
  unfold steps at hfirst ⊢
  cases hbody : d.body with
  | record _ | variant _ | flags _ _ =>
    rw [hbody] at hmarker hfirst
    obtain ⟨rfl, rfl⟩ := Prod.mk.inj (List.mem_singleton.mp hmarker)
    exact hfirst (by simp)
  | aliasOf _ =>
    rw [hbody] at hmarker
    cases hmarker
  | resource identity raw methods companion =>
    rw [hbody] at hmarker hfirst
    -- A marker is before the trait, in the trait, or in the companion.
    simp only [List.mem_cons, List.mem_append, List.mem_map, Prod.mk.injEq] at hmarker
    have htrait {text : String} (hmem : text ∈ traitMembers methods)
        (hline : a.render ∈ Text.splitLines text) :
        (1, a.render) ∈ CodeStep.addedBy (container ("trait " ++ d.name)
          ((traitMembers methods).map .lines)) :=
      mem_addedBy_container _ (List.mem_map_of_mem hmem) hline
    rcases hmarker with (⟨rfl, rfl⟩ | ⟨m, hm, rfl, rfl⟩) | ⟨rfl, rfl⟩ | ⟨m, hm, rfl, rfl⟩
    · exact hfirst (by simp)
    · have hmethod := htrait (List.mem_append_left _ (List.mem_map_of_mem hm))
        (render_mem_splitLines h m.docs m.native)
      simp only [CodeStep.addedBy, CodeStep.addedBy_append, List.mem_append]
      exact .inr (.inl (.inr hmethod))
    · have hdrop := htrait (List.mem_append_right _ (List.mem_singleton_self _))
        (render_mem_splitLines h none (renderNative "close" [] unitSpelling))
      simp only [CodeStep.addedBy, CodeStep.addedBy_append, List.mem_append]
      exact .inr (.inl (.inr hdrop))
    · have hmember : m.marker.render ∈ Text.splitLines (m.text d.name) := by
        cases m with
        | constructor params docs => exact render_mem_splitLines h docs _
        | static s => exact render_mem_splitLines h s.docs _
      have hcompanion := mem_addedBy_container ("object " ++ d.name)
        (List.mem_map_of_mem (f := fun m => CodeStep.lines (m.text d.name)) hm) hmember
      simp only [CodeStep.addedBy, CodeStep.addedBy_append, List.mem_append]
      exact .inr (.inr hcompanion)

/-- The names of the markers that the runtime knows. -/
def Marker.names : List String :=
  ["WitImport", "WitExport", "WitRecord", "WitVariant", "WitFlags", "WitResourceImport",
    "WitResourceConstructor", "WitResourceMethod", "WitResourceStaticMethod", "WitResourceDrop",
    "WitExportInterface"]

/-- No name of a marker has a parenthesis in it, and each is on one line. -/
theorem Marker.of_mem_names {name : String} (h : name ∈ names) :
    '(' ∉ name.toList ∧ Text.IsLine name := by
  have hall : ∀ name ∈ names, '(' ∉ name.toList ∧ Text.IsLine name := by decide +kernel
  exact hall name h

/-- A declared type has markers that the runtime knows. -/
theorem TypeDeclaration.name_mem_names {d : TypeDeclaration} {b : Nat × Marker}
    (h : b ∈ d.markers) : b.2.name ∈ Marker.names := by
  unfold markers at h
  split at h
  · rw [List.mem_singleton.mp h]
    simp [Marker.names, Marker.record]
  · rw [List.mem_singleton.mp h]
    simp [Marker.names, Marker.variant]
  · rw [List.mem_singleton.mp h]
    simp [Marker.names, Marker.flags]
  · cases h
  · simp only [List.mem_cons, List.mem_append, List.mem_map] at h
    rcases h with (rfl | ⟨_, -, rfl⟩) | rfl | ⟨member, -, rfl⟩
    · simp [Marker.names, Marker.importedResource]
    · simp [Marker.names, Marker.resourceMethod]
    · simp [Marker.names, Marker.resourceDrop]
    · cases member
      · simp [Marker.names, CompanionMember.marker, Marker.resourceConstructor]
      · simp [Marker.names, CompanionMember.marker, Marker.resourceStatic]

/-- **A module has markers that the runtime knows.** -/
theorem Module.name_mem_names {m : Module} {depth : Nat} (h : (depth, a) ∈ m.markers) :
    a.name ∈ Marker.names := by
  simp only [markers, List.mem_append, List.mem_flatMap, List.mem_map, Prod.mk.injEq] at h
  rcases h with (h | ⟨d, -, b, hb, -, rfl⟩) | ⟨f, -, -, rfl⟩
  · split at h
    · cases h
    · rw [(Prod.mk.inj (List.mem_singleton.mp h)).2]
      simp [Marker.names, Marker.exportedInterface]
  · exact TypeDeclaration.name_mem_names hb
  · unfold FreeFunction.marker
    split
    · simp [Marker.names, Marker.importedFunction]
    · simp [Marker.names, Marker.exportedFunction]

/-- **The markers of a module are lines of its source file**, as they were made
and as deep as they stand. -/
theorem Module.mem_splitLines_of_mem_markers {m : Module} (header : Bool) {depth : Nat}
    (hmarker : (depth, a) ∈ m.markers) (h : Text.IsLine a.render) :
    CodeBlock.indentation depth ++ a.render ∈
      Text.splitLines (m.sourceFile header).text := by
  simp only [markers, List.mem_append, List.mem_flatMap, List.mem_map, Prod.mk.injEq] at hmarker
  rcases hmarker with (hmarker | ⟨d, hd, b, hb, rfl, rfl⟩) | ⟨f, hf, rfl, rfl⟩
  · have hexported : m.location.direction = .exported ∧ depth = 0 ∧ a = .exportedInterface := by
      split at hmarker
      · cases hmarker
      · next hdirection =>
        exact ⟨hdirection, Prod.mk.inj (List.mem_singleton.mp hmarker)⟩
    obtain ⟨hdirection, rfl, rfl⟩ := hexported
    have hopener : (m.sourceFile header).location.opener = docComment none ++
        Marker.exportedInterface.render ++ "\n" ++
          ("trait " ++ m.location.container ++ " \x7b") := by
      have hnone : docComment none = "" := rfl
      have hparted : "\ntrait " = "\n" ++ "trait " := rfl
      show m.location.opener = _
      rw [Location.opener, hdirection, hnone, hparted, String.empty_append]
      simp only [← String.append_assoc]
    have hadded : (0, Marker.exportedInterface.render) ∈
        CodeStep.addedBy (m.sourceFile header).steps := by
      refine (CodeStep.isInfix_addedBy (s := .lines (m.sourceFile header).location.opener)
        (by simp [SourceFile.steps])).subset (List.mem_map.mpr ⟨_, ?_, rfl⟩)
      rw [hopener]
      exact render_mem_splitLines h none _
    have htext := (CodeBlock.place_mem_splitLines_render h (Marker.render_ne_empty _) hadded).2
    rw [CodeBlock.place, if_neg (Marker.render_ne_empty _)] at htext
    exact htext
  · have hadded := d.mem_addedBy_of_mem_markers hb h
    rcases hd with hd | hd
    · exact SourceFile.indentation_append_mem (s := .types) rfl
        (.inl (List.mem_map.mpr ⟨d, hd, d.text_eq⟩)) h b.2.render_ne_empty hadded
    · exact SourceFile.indentation_append_mem (s := .resources) rfl
        (.inl (List.mem_map.mpr ⟨d, hd, d.text_eq⟩)) h b.2.render_ne_empty hadded
  · have hadded : (0, f.marker.render) ∈ CodeStep.addedBy f.steps :=
      (CodeStep.isInfix_addedBy (s := .line _) (by simp [FreeFunction.steps])).subset
        (List.mem_singleton_self _)
    exact SourceFile.indentation_append_mem (s := .functions) rfl
      (.inr (List.mem_map.mpr ⟨f, hf, f.text_eq⟩)) h f.marker.render_ne_empty hadded

/-- **Markers can be read back.** A marker whose name has no parenthesis in it
is read as it was written, name and arguments, so no other marker has its
text. It is on one line exactly if its name and its arguments are, and then it
is a line of every source file that has it among the lines of a declaration,
behind its indentation. The markers of a module have names without a
parenthesis and are such lines, if their arguments are on one line. -/
theorem Marker.read?_render {a : Marker} (hname : '(' ∉ a.name.toList) :
    read? a.render = some a ∧
    (∀ b : Marker, '(' ∉ b.name.toList → b.render = a.render → b = a) ∧
    (Text.IsLine a.render ↔ Text.IsLine a.name ∧ ∀ argument ∈ a.arguments, argument.IsLine) ∧
    (Text.IsLine a.render → ∀ (f : SourceFile) (s : Section) (steps : List CodeStep) (depth : Nat),
      f.rendered = none →
      CodeStep.render steps ∈ f.sections s ∨ CodeStep.render steps ++ "\n" ∈ f.sections s →
      (depth, a.render) ∈ CodeStep.addedBy steps →
      CodeBlock.indentation (depth + 1 : Nat) ++ a.render ∈ Text.splitLines f.text) ∧
    ∀ (m : Module) (header : Bool) (depth : Nat) (b : Marker), (depth, b) ∈ m.markers →
      read? b.render = some b ∧ ((∀ argument ∈ b.arguments, argument.IsLine) →
        CodeBlock.indentation depth ++ b.render ∈ Text.splitLines (m.sourceFile header).text) := by
  refine ⟨read?_eq hname, fun b hb heq => ?_, isLine_render,
    fun hline f s steps depth hopen h => ?_,
    fun m header depth b hmarker => ?_⟩
  · have hread := read?_eq hb
    rw [heq, read?_eq hname] at hread
    exact (Option.some.inj hread).symm
  · exact SourceFile.indentation_append_mem hopen h hline a.render_ne_empty
  · obtain ⟨hparenthesis, hline⟩ := of_mem_names (Module.name_mem_names hmarker)
    exact ⟨read?_eq hparenthesis, fun harguments =>
      Module.mem_splitLines_of_mem_markers header hmarker (isLine_render.mpr ⟨hline, harguments⟩)⟩

/-- A marker with arguments that imitate what is between arguments. -/
def Marker.imitating : Marker :=
  ⟨"WitImport", [.text "a\\", .text "\", \"b", .number (-12), .text "\\\"", .text ")"]⟩

/-- That marker is read, and no other has its text. -/
theorem Marker.read?_render_imitating :
    '(' ∉ Marker.imitating.name.toList ∧
      Marker.imitating.render =
        "@scala.scalajs.wit.annotation.WitImport(\"a\\\\\", \"\\\", \\\"b\", -12, \"\\\\\\\"\", \")\")" ∧
      read? Marker.imitating.render = some Marker.imitating ∧
      ∀ b : Marker, '(' ∉ b.name.toList → b.render = Marker.imitating.render →
        b = Marker.imitating := by
  have hname : '(' ∉ Marker.imitating.name.toList := by decide
  obtain ⟨hread, hsame, -⟩ := read?_render hname
  exact ⟨hname, by decide +kernel, hread, hsame⟩

end ComponentBindings
