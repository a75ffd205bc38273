import ComponentBindings.Command.Run

/-!
# What writing files changes

A path that is split at its slashes leads from one directory to the next, and
it leads below where it starts if every name does: no name is empty, one dot
or two dots (`LeadsBelow`). Such a path starts at the working directory, it is
followed name by name without going back, and nothing in it is left out when
it is read (`parts_ofString_of_leadsBelow`).

Files whose paths lead below are written below the output directory and
nowhere else (`Plan.grownBelow_run`). What else can change are the directories
on the way to the output directory, which are made where they are missing.
That holds of a run that fails halfway as well, since what it has written up
to then is written in the same way.
-/

namespace ComponentBindings

/-! ## Paths that lead below -/

/-- A name that leads from a directory to something in it. -/
def IsStep (name : String) : Prop := name ≠ "" ∧ name ≠ "." ∧ name ≠ ".."

instance : DecidablePred IsStep := fun name =>
  inferInstanceAs (Decidable (name ≠ "" ∧ name ≠ "." ∧ name ≠ ".."))

/-- The names between the slashes of a path. -/
def stepsOf (path : String) : List String := (Text.pieces (· = '/') path.toList).map String.ofList

/-- **A path that leads below where it starts.** -/
def LeadsBelow (path : String) : Prop := ∀ name ∈ stepsOf path, IsStep name

instance : DecidablePred LeadsBelow := fun path => List.decidableBAll _ (stepsOf path)

section paths

variable {path : String}

/-- A path has a name at least. -/
theorem stepsOf_ne_nil (path : String) : stepsOf path ≠ [] := by
  simp [stepsOf, Text.pieces_ne_nil]

/-- A path without slashes is one name. -/
theorem stepsOf_of_slash_notMem (h : '/' ∉ path.toList) : stepsOf path = [path] := by
  have hpieces : Text.pieces (· = '/') path.toList = [path.toList] := by
    refine Text.pieces_of_forall fun c hc => ?_
    simpa using fun heq : c = '/' => h (heq ▸ hc)
  rw [stepsOf, hpieces, List.map_singleton, String.ofList_toList]

/-- Two paths that are joined have the names of both. -/
theorem stepsOf_append_slash (first rest : String) :
    stepsOf (first ++ "/" ++ rest) = stepsOf first ++ stepsOf rest := by
  have hlist : (first ++ "/" ++ rest).toList = first.toList ++ '/' :: rest.toList := by simp
  rw [stepsOf, hlist, Text.pieces_append_cons (by simp), List.map_append]
  rfl

/-- **A joined path has the names of its parts.** -/
theorem stepsOf_intercalate {parts : List String} (hne : parts ≠ []) :
    stepsOf ("/".intercalate parts) = parts.flatMap stepsOf := by
  induction parts with
  | nil => exact absurd rfl hne
  | cons part parts ih =>
    cases parts with
    | nil => simp
    | cons next rest =>
      rw [String.intercalate_cons_cons, stepsOf_append_slash, ih (by simp)]
      rfl

/-- A path whose first name is not empty starts at the working directory. -/
theorem slashes_ofString_eq_zero (h : (stepsOf path).head? ≠ some "") :
    (Path.ofString path).slashes = 0 := by
  have hfront : path.toList.takeWhile (· = '/') = [] := by
    cases hlist : path.toList with
    | nil => rfl
    | cons c rest =>
      refine List.takeWhile_cons_of_neg ?_
      intro hslash
      refine h ?_
      rw [stepsOf, hlist, Text.pieces, if_pos hslash]
      rfl
  simp [Path.ofString, hfront]

/-- **A path that leads below is read name by name.** -/
theorem parts_ofString_of_leadsBelow (h : LeadsBelow path) :
    (Path.ofString path).slashes = 0 ∧ (Path.ofString path).parts = stepsOf path := by
  constructor
  · refine slashes_ofString_eq_zero fun hhead => ?_
    exact (h "" (List.mem_of_mem_head? hhead)).1 rfl
  · refine List.filter_eq_self.mpr fun name hname => ?_
    obtain ⟨hempty, hdot, -⟩ := h name hname
    simp [Path.isPart, hempty, hdot]

end paths

/-! ## Places -/

namespace Place

/-- The place that names lead to from a place, whatever is there. -/
def after (place : Place) (names : List String) : Place := names.foldl child place

/-- Names lead on from where the names before them lead to. -/
theorem after_append (place : Place) (names names' : List String) :
    place.after (names ++ names') = (place.after names).after names' :=
  List.foldl_append ..

/-- **Steps lead down.** -/
theorem after_of_isStep {place : Place} {names : List String} (h : ∀ name ∈ names, IsStep name) :
    place.after names = place ++ names := by
  induction names generalizing place with
  | nil => exact (List.append_nil _).symm
  | cons name names ih =>
    obtain ⟨-, -, hdots⟩ := h name List.mem_cons_self
    have hchild : place.child name = place ++ [name] := if_neg hdots
    rw [after, List.foldl_cons, hchild]
    exact (ih fun other hother => h other (List.mem_cons_of_mem _ hother)).trans
      (List.append_assoc ..)

end Place

/-! ## What is changed -/

namespace FileTree

variable {t t' t'' : FileTree} {start place : Place} {names steps : List String} {text : String}

/-- A place in which a directory has been made. -/
def MadeDirectory (t t' : FileTree) (place : Place) : Prop :=
  t.get? place = none ∧ t'.get? place = some .directory

/-- **A tree that has changed below a directory.** The directory is where the
names lead to from a start. -/
structure GrownBelow (start : Place) (names : List String) (t t' : FileTree) : Prop where
  /-- The working directory is the same. -/
  working : t'.working = t.working
  /-- What has changed is below the directory, or a directory that was made on
  the way to it. -/
  changed : ∀ place, t'.get? place ≠ t.get? place →
    (start.after names <+: place ∧ place ≠ start.after names) ∨
      (∃ before, before <+: names ∧ place = start.after before) ∧ MadeDirectory t t' place

/-- A tree does not change by itself. -/
theorem GrownBelow.refl (start : Place) (names : List String) (t : FileTree) :
    GrownBelow start names t t :=
  ⟨rfl, fun _ h => absurd rfl h⟩

/-- One change after another. -/
theorem GrownBelow.trans (h : GrownBelow start names t t') (h' : GrownBelow start names t' t'') :
    GrownBelow start names t t'' where
  working := h'.working.trans h.working
  changed place hne := by
    by_cases hlater : t''.get? place = t'.get? place
    · rw [hlater] at hne
      refine (h.changed place hne).imp id fun ⟨hway, hnone, hmade⟩ => ⟨hway, hnone, ?_⟩
      rw [hlater, hmade]
    · rcases h'.changed place hlater with hbelow | ⟨hway, hnone, hmade⟩
      · exact .inl hbelow
      · by_cases hfirst : t'.get? place = t.get? place
        · exact .inr ⟨hway, hfirst ▸ hnone, hmade⟩
        · rcases h.changed place hfirst with hbelow | ⟨-, -, hmade'⟩
          · exact .inl hbelow
          · rw [hnone] at hmade'
            cases hmade'

/-- A directory is made where nothing is, or is there. -/
theorem makeDirectory_eq_some (h : t.makeDirectory place = some t') :
    t' = t ∨ t.get? place = none ∧ t' = t.put place .directory := by
  unfold makeDirectory at h
  split at h
  · exact .inl (Option.some.inj h).symm
  · cases h
  · next hnone =>
    split at h
    · exact .inr ⟨hnone, (Option.some.inj h).symm⟩
    · cases h

/-- Where nothing is, the root is not. -/
theorem ne_nil_of_get?_eq_none (h : t.get? place = none) : place ≠ [] := by
  rintro rfl
  cases h

/-- **Directories are made on the way** that the names lead, and nothing else
is changed. -/
theorem makeDirectories_changes (t : FileTree) (place : Place) (names : List String) :
    (t.makeDirectories place names).2.working = t.working ∧
      (∀ last, (t.makeDirectories place names).1 = some last → last = place.after names) ∧
      ∀ other, (t.makeDirectories place names).2.get? other ≠ t.get? other →
        (∃ before, before <+: names ∧ other = place.after before) ∧
          MadeDirectory t (t.makeDirectories place names).2 other := by
  induction names generalizing t place with
  | nil => exact ⟨rfl, fun last hlast => (Option.some.inj hlast).symm, fun _ h => absurd rfl h⟩
  | cons name names ih =>
    rw [makeDirectories]
    cases hmake : t.makeDirectory (place.child name) with
    | none => exact ⟨rfl, fun _ hlast => (by cases hlast), fun _ h => absurd rfl h⟩
    | some t₁ =>
      dsimp only
      obtain ⟨hworking, hlast, hchanged⟩ := ih t₁ (place.child name)
      have hway : ∀ {other}, (∃ before, before <+: names ∧ other = (place.child name).after before)
          → ∃ before, before <+: name :: names ∧ other = place.after before := by
        rintro other ⟨before, hbefore, rfl⟩
        exact ⟨name :: before, List.cons_prefix_cons.mpr ⟨rfl, hbefore⟩, rfl⟩
      rcases makeDirectory_eq_some hmake with rfl | ⟨hnone, rfl⟩
      · exact ⟨hworking, hlast, fun other hne => (hchanged other hne).imp hway id⟩
      · refine ⟨hworking, hlast, fun other hne => ?_⟩
        have hhere := get?_put_self t .directory (ne_nil_of_get?_eq_none hnone)
        by_cases hother : other = place.child name
        · -- The directory that is made first stays.
          subst hother
          refine ⟨⟨[name], by simp, rfl⟩, hnone, ?_⟩
          refine Decidable.byContradiction fun hgone => ?_
          have hlater := (hchanged _ (fun heq => hgone (heq.trans hhere))).2.1
          rw [hhere] at hlater
          cases hlater
        · have hsame := get?_put_of_ne t .directory hother
          have hlater := hchanged other (fun heq => hne (heq.trans hsame))
          refine ⟨hway hlater.1, ?_, hlater.2.2⟩
          rw [← hsame]
          exact hlater.2.1

/-- A text is written at its place, and nothing else is changed. -/
theorem writeAt_changes (t : FileTree) (place : Place) (text : String) :
    (t.writeAt place text).2.working = t.working ∧
      ∀ other, other ≠ place → (t.writeAt place text).2.get? other = t.get? other := by
  unfold writeAt
  split
  · exact ⟨rfl, fun _ _ => rfl⟩
  · split
    · exact ⟨rfl, fun _ hother => get?_put_of_ne t _ hother⟩
    · exact ⟨rfl, fun _ hother => get?_put_of_ne t _ hother⟩

/-- Steps from a directory lead below it, if there is one. -/
theorem below_of_isStep (hsteps : ∀ name ∈ steps, IsStep name) (hne : steps ≠ []) :
    start.after names <+: start.after (names ++ steps) ∧
      start.after (names ++ steps) ≠ start.after names := by
  rw [Place.after_append, Place.after_of_isStep hsteps]
  exact ⟨List.prefix_append _ _, by simpa using hne⟩

/-- **A file is written below a directory** if steps lead to it from there. -/
theorem grownBelow_write {p : Path} (hparts : p.parts = names ++ steps) (hne : steps ≠ [])
    (hsteps : ∀ name ∈ steps, IsStep name) :
    GrownBelow (t.start p) names t (t.write p text).2 := by
  obtain ⟨front, name, rfl⟩ := List.eq_nil_or_concat steps |>.resolve_left hne
  have hdirectories : p.parts.dropLast = names ++ front := by
    rw [hparts, List.concat_eq_append, ← List.append_assoc, List.dropLast_concat]
  have hname : p.parts.getLast? = some name := by
    rw [hparts, List.concat_eq_append, ← List.append_assoc, List.getLast?_concat]
  obtain ⟨hworking, hlast, hchanged⟩ := makeDirectories_changes t (t.start p) (names ++ front)
  -- The directories that are made lead to the output directory, or on from it.
  have hmade :
      GrownBelow (t.start p) names t (t.makeDirectories (t.start p) (names ++ front)).2 := by
    refine ⟨hworking, fun place hplace => ?_⟩
    obtain ⟨⟨before, hbefore, rfl⟩, hdirectory⟩ := hchanged place hplace
    rcases List.prefix_or_prefix_of_prefix hbefore (List.prefix_append names front) with hway | hway
    · exact .inr ⟨⟨before, hway, rfl⟩, hdirectory⟩
    · obtain ⟨more, rfl⟩ := hway
      by_cases hmore : more = []
      · subst hmore
        exact .inr ⟨⟨names, List.prefix_rfl, by rw [List.append_nil]⟩, hdirectory⟩
      · have hfront := (List.prefix_append_right_inj names).mp hbefore
        refine .inl (below_of_isStep (fun other hother => hsteps other ?_) hmore)
        simpa using .inl (hfront.subset hother)
  unfold write
  rw [hdirectories, hname]
  split
  · exact .refl _ _ _
  · generalize t.makeDirectories (t.start p) (names ++ front) = made at *
    obtain ⟨found, t₁⟩ := made
    cases found with
    | none => exact hmade
    | some last =>
      dsimp only
      split
      · obtain ⟨hworking', hsame⟩ := writeAt_changes t₁ (last.child name) text
        refine hmade.trans ⟨hworking', fun place hplace => .inl ?_⟩
        have hplace : place = (t.start p).after (names ++ front.concat name) := by
          rw [Decidable.byContradiction fun hother => hplace (hsame place hother), hlast last rfl,
            List.concat_eq_append, ← List.append_assoc]
          exact (Place.after_append _ _ [name]).symm
        rw [hplace]
        exact below_of_isStep hsteps hne
      · exact hmade

/-- **Files are written below a directory** if steps lead to all of them from
there. -/
theorem grownBelow_writeAll {dir : Path} {writes : List (Path × String)}
    (h : ∀ write ∈ writes, write.1.slashes = dir.slashes ∧ ∃ steps, steps ≠ [] ∧
      write.1.parts = dir.parts ++ steps ∧ ∀ name ∈ steps, IsStep name) :
    GrownBelow (t.start dir) dir.parts t (t.writeAll writes).2 := by
  induction writes generalizing t with
  | nil => exact .refl _ _ _
  | cons write writes ih =>
    obtain ⟨p, text⟩ := write
    obtain ⟨hslashes, steps, hne, hparts, hsteps⟩ := h _ List.mem_cons_self
    have hstart : t.start p = t.start dir := by
      unfold start
      rw [hslashes]
    have hfirst : GrownBelow (t.start dir) dir.parts t (t.write p text).2 :=
      hstart ▸ grownBelow_write hparts hne hsteps
    rw [writeAll]
    generalize t.write p text = written at hfirst
    obtain ⟨succeeded, t₁⟩ := written
    cases succeeded with
    | false => exact hfirst
    | true =>
      have hsame : t₁.start dir = t.start dir := by
        unfold start
        rw [hfirst.working]
      exact hfirst.trans (hsame ▸ ih fun write hwrite => h write (List.mem_cons_of_mem _ hwrite))

end FileTree

/-- **A plan for files whose paths lead below changes nothing outside the
output directory**, apart from the directories on the way to it. -/
theorem Plan.grownBelow_run {files : List (String × String)} (s : Settings) (l : Libraries)
    (t : FileTree) (h : ∀ file ∈ files, LeadsBelow file.1) :
    FileTree.GrownBelow (t.start s.outDir) s.outDir.parts t ((s.plan files).run l t).tree := by
  rw [Plan.tree_run]
  split
  · refine FileTree.grownBelow_writeAll fun write hwrite => ?_
    unfold Settings.plan at hwrite
    split at hwrite
    · cases hwrite
    · obtain ⟨⟨path, content⟩, hfile, rfl⟩ := List.mem_map.mp hwrite
      obtain ⟨hslashes, hparts⟩ := parts_ofString_of_leadsBelow (h _ hfile)
      refine ⟨?_, stepsOf path, stepsOf_ne_nil path, ?_, h _ hfile⟩
      · simp [Path.join, hslashes]
      · rw [Path.parts_join hslashes, hparts]
  · exact .refl _ _ _

end ComponentBindings
