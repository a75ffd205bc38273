import ComponentBindings.Proofs.Written
import Mathlib.Data.List.Basic

/-!
# Filling an empty directory

Files are written into a directory that is empty, or is made for them. Each of them may be such that
the file system takes it alone: nothing is in the way, and no name and no path is too long
(`FileTree.Fits`). Then it takes all of them, unless one file is where a directory has to be for
another one. What can still fail is a text that cannot be encoded: it leaves an empty file, and no
file is written after it (`FileTree.kept`).

The proof keeps an inventory of the directory from one file to the next (`FileTree.Filled`): what
has changed since it was empty is a file that has been written or a directory on the way to one. So
what was free for the next file is still free, and what was written before stays
(`FileTree.Filled.writeAll`).
-/

namespace ComponentBindings

/-! ## Paths that can be used -/

namespace Path

/-- Joined names take the bytes of both and one for the slash. -/
theorem byteSize_append_slash (x y : String) :
    Text.byteSize (x ++ "/" ++ y) = Text.byteSize x + 1 + Text.byteSize y := by
  have hslash : (CodePoint.char '/').size = 1 := rfl
  rw [Text.byteSize, codePoints_append_slash, CodePoint.totalSize_append, CodePoint.totalSize,
    hslash, ← Nat.add_assoc]
  rfl

/-- Joined names grow by each name. -/
theorem byteSize_intercalate_concat_le (parts : List String) (name : String) :
    Text.byteSize ("/".intercalate parts) ≤ Text.byteSize ("/".intercalate (parts ++ [name])) := by
  induction parts with
  | nil => exact Nat.zero_le _
  | cons part parts ih =>
    cases parts with
    | nil =>
      simp only [List.nil_append, List.cons_append, String.intercalate_cons_cons,
        String.intercalate_singleton, byteSize_append_slash]
      omega
    | cons next rest =>
      simp only [List.cons_append, String.intercalate_cons_cons, byteSize_append_slash] at ih ⊢
      omega

/-- The text of the directory of a path is not longer, or it is a dot. -/
theorem byteSize_text_parent_le (p : Path) :
    Text.byteSize p.parent.text ≤ max 1 (Text.byteSize p.text) := by
  have hparent : p.parent.parts = p.parts.dropLast := rfl
  have hslashes : p.parent.slashes = p.slashes := rfl
  unfold text
  rw [hparent, hslashes]
  rcases List.eq_nil_or_concat p.parts with hnil | ⟨front, name, hconcat⟩
  · rw [hnil]
    exact Nat.le_max_right 1 _
  · rw [hconcat, List.concat_eq_append, List.dropLast_concat]
    split
    · exact Nat.le_max_left 1 _
    · have hgrown := byteSize_intercalate_concat_le front name
      rw [if_neg (by simp)]
      simp only [Text.byteSize, codePoints_slashes_append, CodePoint.totalSize_append] at hgrown ⊢
      omega

/-- The directory of what a path that can be used leads to can be used. -/
theorem isUsable_parent {p : Path} (h : p.isUsable = true) : p.parent.isUsable = true := by
  have hsub : ∀ name ∈ p.parent.parts, name ∈ p.parts := fun name hname =>
    List.dropLast_subset _ hname
  simp only [isUsable, hasNul, Bool.and_eq_true, Bool.not_eq_true', List.any_eq_false,
    List.all_eq_true, decide_eq_true_eq] at h ⊢
  obtain ⟨⟨hnul, hencodable⟩, hsize⟩ := h
  refine ⟨⟨fun name hname => hnul name (hsub name hname),
    fun name hname => hencodable name (hsub name hname)⟩, ?_⟩
  have hone : 1 ≤ sizeLimit := by decide
  exact Nat.le_trans (byteSize_text_parent_le p) (Nat.max_le.mpr ⟨hone, hsize⟩)

/-- The path of what names lead to from a directory. -/
def below (dir : Path) (steps : List String) : Path := { dir with parts := dir.parts ++ steps }

end Path

namespace FileTree

variable {t t' : FileTree} {start place other out : Place} {names steps : List String}

/-! ## Entries -/

/-- Where nothing is, an entry is added. -/
theorem entries_put_of_get?_eq_none (h : t.get? place = none) (e : Entry) :
    (t.put place e).entries = (place, e) :: t.entries := by
  have hnone : t.entries.lookup place = none := by
    rwa [get?, if_neg (ne_nil_of_get?_eq_none h)] at h
  have hkeep : t.entries.filter (·.1 ≠ place) = t.entries := by
    refine List.filter_eq_self.mpr fun entry hentry => ?_
    have hne := List.lookup_eq_none_iff.mp hnone entry hentry
    simpa using fun heq : entry.1 = place => by simp [heq] at hne
  rw [put, hkeep]

/-- A directory is no file. -/
theorem filesBelow_put_directory (h : t.get? place = none) (out : Place) :
    (t.put place .directory).filesBelow out = t.filesBelow out := by
  rw [filesBelow, entries_put_of_get?_eq_none h]
  rfl

/-- A file is added to those below a directory. -/
theorem filesBelow_put_file (h : t.get? (out ++ steps) = none) (text : String) :
    (t.put (out ++ steps) (.file text)).filesBelow out = (steps, text) :: t.filesBelow out := by
  rw [filesBelow, entries_put_of_get?_eq_none h, List.filterMap_cons]
  simp [filesBelow]

/-! ## Making directories -/

/-- **A place that can be passed**: a directory, or nothing and a name for one that is not too
long. -/
structure IsPassable (t : FileTree) (place : Place) : Prop where
  /-- No file is there. -/
  not_file : ∀ text, t.get? place ≠ some (.file text)
  /-- A directory can be made if nothing is there. -/
  size_le : t.get? place = none → Text.byteSize (place.getLast?.getD "") ≤ nameLimit

/-- A place where nothing has changed can be passed still. -/
theorem IsPassable.congr (h : t.IsPassable place) (hsame : t'.get? place = t.get? place) :
    t'.IsPassable place :=
  ⟨fun text hfile => h.not_file text (hsame.symm.trans hfile), fun hnone =>
    h.size_le (hsame.symm.trans hnone)⟩

/-- A directory can be passed. -/
theorem isPassable_of_directory (h : t.get? place = some .directory) : t.IsPassable place := by
  refine ⟨fun text hfile => ?_, fun hnone => ?_⟩
  · rw [h] at hfile
    cases hfile
  · rw [h] at hnone
    cases hnone

/-- A directory is made only where it can be passed. -/
theorem isPassable_of_makeDirectory (h : t.makeDirectory place = some t') : t.IsPassable place := by
  unfold makeDirectory at h
  split at h
  · next hdirectory => exact isPassable_of_directory hdirectory
  · cases h
  · next hnone =>
    refine ⟨fun text hfile => ?_, fun _ => ?_⟩
    · rw [hnone] at hfile
      cases hfile
    · split at h
      · next hsize => exact hsize
      · cases h

/-- Where it can be passed, there is a directory, or one is made and no file. -/
theorem makeDirectory_of_isPassable (h : t.IsPassable place) :
    ∃ t', t.makeDirectory place = some t' ∧ t'.get? place = some .directory ∧
      (∀ other, t'.get? other = t.get? other ∨ t'.get? other = some .directory) ∧
      ∀ out, t'.filesBelow out = t.filesBelow out := by
  unfold makeDirectory
  split
  · next hdirectory => exact ⟨t, rfl, hdirectory, fun _ => .inl rfl, fun _ => rfl⟩
  · next text hfile => exact absurd hfile (h.not_file text)
  · next hnone =>
    have hhere := get?_put_self t .directory (ne_nil_of_get?_eq_none hnone)
    rw [if_pos (h.size_le hnone)]
    refine ⟨_, rfl, hhere, fun other => ?_, filesBelow_put_directory hnone⟩
    by_cases hother : other = place
    · exact .inr (hother ▸ hhere)
    · exact .inl (get?_put_of_ne t _ hother)

/-- What is there stays when directories are made. -/
theorem get?_makeDirectories {e : Entry} (h : t.get? other = some e) (place : Place)
    (names : List String) : (t.makeDirectories place names).2.get? other = some e := by
  obtain ⟨-, -, hchanged⟩ := makeDirectories_changes t place names
  refine Decidable.byContradiction fun hne => ?_
  obtain ⟨-, hnone, -⟩ := hchanged other (h ▸ hne)
  rw [h] at hnone
  cases hnone

/-- **Directories are made** where every place on the way can be passed. -/
theorem makeDirectories_of_isPassable
    (h : ∀ before, before <+: names → before ≠ [] → t.IsPassable (place.after before)) :
    (t.makeDirectories place names).1 = some (place.after names) ∧
      (∀ before, before <+: names → before ≠ [] →
        (t.makeDirectories place names).2.get? (place.after before) = some .directory) ∧
      ∀ out, (t.makeDirectories place names).2.filesBelow out = t.filesBelow out := by
  induction names generalizing t place with
  | nil =>
    exact ⟨rfl, fun before hbefore hne => absurd (List.prefix_nil.mp hbefore) hne, fun _ => rfl⟩
  | cons name names ih =>
    obtain ⟨t₁, hmade, hhere, hothers, hfiles⟩ :=
      makeDirectory_of_isPassable (h [name] (by simp) (by simp))
    have hlater : ∀ before, before <+: names → before ≠ [] →
        t₁.IsPassable ((place.child name).after before) := by
      intro before hbefore hne
      have hpassable := h (name :: before) (List.cons_prefix_cons.mpr ⟨rfl, hbefore⟩) (by simp)
      rcases hothers ((place.child name).after before) with hsame | hdirectory
      · exact hpassable.congr hsame
      · exact isPassable_of_directory hdirectory
    obtain ⟨hlast, hdirectories, hfiles'⟩ := ih hlater
    rw [makeDirectories]
    rw [show t.makeDirectory (place.child name) = some t₁ from hmade]
    refine ⟨hlast, fun before hbefore hne => ?_, fun out => (hfiles' out).trans (hfiles out)⟩
    obtain ⟨first, rest, rfl⟩ := List.exists_cons_of_ne_nil hne
    obtain ⟨rfl, hrest⟩ := List.cons_prefix_cons.mp hbefore
    by_cases hempty : rest = []
    · subst hempty
      exact get?_makeDirectories hhere _ _
    · exact hdirectories rest hrest hempty

/-- **Directories are made only** where every place on the way can be passed. -/
theorem isPassable_of_makeDirectories {last : Place}
    (h : (t.makeDirectories place names).1 = some last) :
    ∀ before, before <+: names → before ≠ [] → t.IsPassable (place.after before) := by
  induction names generalizing t place with
  | nil => exact fun before hbefore hne => absurd (List.prefix_nil.mp hbefore) hne
  | cons name names ih =>
    intro before hbefore hne
    rw [makeDirectories] at h
    cases hmade : t.makeDirectory (place.child name) with
    | none =>
      rw [hmade] at h
      cases h
    | some t₁ =>
      rw [hmade] at h
      have hfirst := isPassable_of_makeDirectory hmade
      obtain ⟨first, rest, rfl⟩ := List.exists_cons_of_ne_nil hne
      obtain ⟨rfl, hrest⟩ := List.cons_prefix_cons.mp hbefore
      by_cases hempty : rest = []
      · subst hempty
        exact hfirst
      by_cases hplace : place.after (first :: rest) = place.child first
      · exact hplace ▸ hfirst
      have hlater := ih h rest hrest hempty
      rcases makeDirectory_eq_some hmade with rfl | ⟨-, rfl⟩
      · exact hlater
      · exact hlater.congr (get?_put_of_ne t .directory hplace).symm

/-! ## The inventory of a directory -/

/-- The place that a path leads to, whatever is there. -/
def placeOf (t : FileTree) (p : Path) : Place := (t.start p).after p.parts

/-- **An empty directory**, or a place for one. -/
def IsVacant (t : FileTree) (out : Place) : Prop :=
  ∀ entry ∈ t.entries, out <+: entry.1 → entry = (out, .directory)

instance (t : FileTree) (out : Place) : Decidable (t.IsVacant out) :=
  List.decidableBAll _ t.entries

/-- Nothing is below an empty directory. -/
theorem IsVacant.get?_eq_none (h : t.IsVacant out) (hne : steps ≠ []) :
    t.get? (out ++ steps) = none := by
  rw [get?, if_neg (by simp [hne]), List.lookup_eq_none_iff]
  rintro ⟨place, e⟩ hentry
  refine bne_iff_ne.mpr fun heq => hne ?_
  have hplace := congrArg Prod.fst (h _ hentry (heq ▸ List.prefix_append out steps))
  exact List.append_right_eq_self.mp (heq.trans hplace)

/-- No file is in an empty directory. -/
theorem IsVacant.filesBelow_eq_nil (h : t.IsVacant out) : t.filesBelow out = [] := by
  refine List.filterMap_eq_nil_iff.mpr ?_
  rintro ⟨place, e⟩ hentry
  cases e with
  | directory => rfl
  | file text =>
    refine if_neg fun hinit => ?_
    cases (Prod.mk.inj (h _ hentry (List.isPrefixOf_iff_prefix.mp hinit))).2

/-- **A file that can be written** below a directory, as far as the file system is concerned. -/
structure Fits (t : FileTree) (dir : Path) (steps : List String) : Prop where
  /-- The file is in the directory. -/
  ne_nil : steps ≠ []
  /-- The file is below the directory. -/
  isStep : ∀ name ∈ steps, IsStep name
  /-- The path starts at a directory. -/
  root : t.get? (t.start dir) = some .directory
  /-- The path of the file can be used. -/
  isUsable : (dir.below steps).isUsable = true
  /-- The way to the file can be passed. -/
  isPassable : ∀ before, before <+: dir.parts ++ steps.dropLast → before ≠ [] →
    t.IsPassable ((t.start dir).after before)
  /-- The file is not on the way to the directory. -/
  off : ∀ before, before <+: dir.parts → (t.start dir).after before ≠ t.placeOf dir ++ steps
  /-- The name of the file is not too long. -/
  size_le : Text.byteSize (steps.getLast?.getD "") ≤ nameLimit

/-- Files neither of which is on the way to the other. -/
def Apart (steps steps' : List String) : Prop := ¬ steps <+: steps' ∧ ¬ steps' <+: steps

/-- What is left of a text that is written: nothing if it cannot be encoded. -/
def keptText (text : String) : String := if Text.isEncodable text then text else ""

/-- **The files that are left** of those that are to be written: all of them up to the first whose
text cannot be encoded, and of that one an empty file. -/
def kept : List (List String × String) → List (List String × String)
  | [] => []
  | (steps, text) :: rest =>
    if Text.isEncodable text then (steps, text) :: kept rest else [(steps, "")]

/-- If all texts can be encoded, all files are left. -/
theorem kept_eq_self {files : List (List String × String)}
    (h : ∀ file ∈ files, Text.isEncodable file.2 = true) : kept files = files := by
  induction files with
  | nil => rfl
  | cons file rest ih =>
    obtain ⟨hfile, hrest⟩ := List.forall_mem_cons.mp h
    rw [kept, if_pos hfile, ih hrest]

/-- **A directory that was empty, and the files that have been written into it** since then, each
with the names that lead to it. -/
structure Filled (t₀ : FileTree) (dir : Path) (done : List (List String × String)) (t : FileTree) :
    Prop where
  /-- The working directory is the same. -/
  working : t.working = t₀.working
  /-- What was there is there. -/
  mono : ∀ {place e}, t₀.get? place = some e → t.get? place = some e
  /-- There was nothing below the directory. -/
  vacant : ∀ {steps}, steps ≠ [] → t₀.get? (t₀.placeOf dir ++ steps) = none
  /-- The files could be written. -/
  fits : ∀ file ∈ done, Fits t₀ dir file.1
  /-- The files in the directory are those that have been written. -/
  files : t.filesBelow (t₀.placeOf dir) = done.reverse
  /-- What has changed is a directory on the way to a file, or a file. -/
  changed : ∀ place, t.get? place = t₀.get? place ∨
    (∃ file ∈ done, ∃ before, before <+: dir.parts ++ file.1.dropLast ∧
      (t₀.start dir).after before = place ∧ t.get? place = some .directory) ∨
    ∃ file ∈ done, t₀.placeOf dir ++ file.1 = place
  /-- The files are there. -/
  get? : ∀ file ∈ done, t.get? (t₀.placeOf dir ++ file.1) = some (.file file.2)
  /-- The ways to the files are there. -/
  leads : ∀ file ∈ done, ∀ before, before <+: dir.parts ++ file.1.dropLast →
    t.get? ((t₀.start dir).after before) = some .directory

/-- An empty directory. -/
theorem filled_nil {t₀ : FileTree} {dir : Path} (h : t₀.IsVacant (t₀.placeOf dir)) :
    Filled t₀ dir [] t₀ where
  working := rfl
  mono hget := hget
  vacant hne := h.get?_eq_none hne
  fits := by simp
  files := h.filesBelow_eq_nil
  changed _ := .inl rfl
  get? := by simp
  leads := by simp

section Filled

variable {t₀ t₁ : FileTree} {dir : Path} {done files : List (List String × String)}
  {before : List String} {file : List String × String} {text : String}

/-- A place on the way to a file below a directory is on the way to the directory, or below it. -/
theorem prefix_or_of_prefix_append (h : before <+: names ++ steps) :
    before <+: names ∨ ∃ more, more <+: steps ∧ before = names ++ more := by
  rcases List.prefix_or_prefix_of_prefix h (List.prefix_append names steps) with hway | ⟨more, rfl⟩
  · exact .inl hway
  · exact .inr ⟨more, (List.prefix_append_right_inj names).mp h, rfl⟩

/-- Steps lead on from where a path leads to. -/
theorem after_append_eq_placeOf (h : ∀ name ∈ steps, IsStep name) :
    (t.start dir).after (dir.parts ++ steps) = t.placeOf dir ++ steps := by
  rw [Place.after_append, Place.after_of_isStep h, placeOf]

/-- **What is on the way to a file is another file** only if that one is on the way to it. -/
theorem Fits.prefix_of_after_eq {steps' : List String} (h : Fits t₀ dir steps')
    (hsteps : ∀ name ∈ steps, IsStep name) (hbefore : before <+: dir.parts ++ steps)
    (heq : (t₀.start dir).after before = t₀.placeOf dir ++ steps') : steps' <+: steps := by
  rcases prefix_or_of_prefix_append hbefore with hinit | ⟨more, hinit, rfl⟩
  · exact absurd heq (h.off before hinit)
  · rw [after_append_eq_placeOf fun name hname => hsteps name (hinit.subset hname)] at heq
    exact List.append_cancel_left heq ▸ hinit

/-- Paths start where they did. -/
theorem Filled.start_eq (h : Filled t₀ dir done t) : t.start dir = t₀.start dir :=
  congrArg (if dir.slashes = 0 then · else []) h.working

/-- The directory is where it was. -/
theorem Filled.placeOf_eq (h : Filled t₀ dir done t) : t.placeOf dir = t₀.placeOf dir :=
  congrArg (Place.after · dir.parts) h.start_eq

/-- **The way to a file can be passed** still when other files have been written. -/
theorem Filled.isPassable (h : Filled t₀ dir done t) (hfits : Fits t₀ dir steps)
    (hapart : ∀ file ∈ done, Apart file.1 steps) (hbefore : before <+: dir.parts ++ steps.dropLast)
    (hne : before ≠ []) : t.IsPassable ((t₀.start dir).after before) := by
  have hfirst := hfits.isPassable before hbefore hne
  rcases h.changed ((t₀.start dir).after before) with
    hsame | ⟨-, -, -, -, -, hdirectory⟩ | ⟨file, hfile, heq⟩
  · exact hfirst.congr hsame
  · exact isPassable_of_directory hdirectory
  · -- A file that is in the way would be on the way to this one.
    have hdrop : ∀ name ∈ steps.dropLast, IsStep name := fun name hname =>
      hfits.isStep name (List.dropLast_subset _ hname)
    have hinit := (h.fits file hfile).prefix_of_after_eq hdrop hbefore heq.symm
    exact absurd (hinit.trans (List.dropLast_prefix steps)) (hapart file hfile).1

/-- **How a file is written below a directory**: the directories on the way to it are made, and then
the text is written at its place. -/
theorem write_below_eq (hne : steps ≠ []) (hsteps : ∀ name ∈ steps, IsStep name) (text : String) :
    t.write (dir.below steps) text =
      if !(dir.below steps).parent.isUsable then (false, t)
      else match t.makeDirectories (t.start dir) (dir.parts ++ steps.dropLast) with
        | (some _, t') =>
          if (dir.below steps).isUsable then t'.writeAt (t.placeOf dir ++ steps) text
          else (false, t')
        | (none, t') => (false, t') := by
  have hstart : t.start (dir.below steps) = t.start dir := rfl
  have hdrop : (dir.below steps).parts.dropLast = dir.parts ++ steps.dropLast :=
    List.dropLast_append_of_ne_nil hne
  obtain ⟨front, name, hconcat⟩ := List.eq_nil_or_concat steps |>.resolve_left hne
  rw [List.concat_eq_append] at hconcat
  have hname : (dir.below steps).parts.getLast? = some name := by simp [Path.below, hconcat]
  have hplace : ((t.start dir).after (dir.parts ++ steps.dropLast)).child name =
      t.placeOf dir ++ steps := by
    rw [← after_append_eq_placeOf hsteps, hconcat, List.dropLast_concat, ← List.append_assoc]
    exact (Place.after_append _ _ [name]).symm
  obtain ⟨-, hlast, -⟩ := makeDirectories_changes t (t.start dir) (dir.parts ++ steps.dropLast)
  rw [FileTree.write, hstart, hdrop, hname]
  generalize t.makeDirectories (t.start dir) (dir.parts ++ steps.dropLast) = made at hlast ⊢
  obtain ⟨found, t'⟩ := made
  cases found with
  | none => rfl
  | some last =>
    dsimp only at hlast ⊢
    rw [hlast last rfl, hplace]

/-- **A file that is written alone can be written.** -/
theorem fits_of_write (hroot : t.get? (t.start dir) = some .directory) (hne : steps ≠ [])
    (hsteps : ∀ name ∈ steps, IsStep name) (h : (t.write (dir.below steps) text).1 = true) :
    Fits t dir steps := by
  rw [write_below_eq hne hsteps] at h
  split at h
  · cases h
  split at h
  case h_2 => cases h
  case h_1 last t' hmade =>
    have hlast : (t.makeDirectories (t.start dir) (dir.parts ++ steps.dropLast)).1 = some last := by
      rw [hmade]
    have hpassable := isPassable_of_makeDirectories hlast
    obtain ⟨-, hdirectories, -⟩ := makeDirectories_of_isPassable hpassable
    have hkept := get?_makeDirectories hroot (t.start dir) (dir.parts ++ steps.dropLast)
    rw [hmade] at hdirectories hkept
    split at h
    case isFalse => cases h
    case isTrue husable =>
      unfold writeAt at h
      split at h
      · cases h
      next hplace =>
      obtain ⟨hfile, hsize⟩ := not_or.mp hplace
      rw [List.getLast?_append_of_ne_nil _ hne] at hsize
      refine ⟨hne, hsteps, hroot, husable, hpassable, fun before hbefore heq => hfile ?_,
        Nat.le_of_not_lt hsize⟩
      rw [← heq]
      by_cases hempty : before = []
      · subst hempty
        exact hkept
      · exact hdirectories before (hbefore.trans (List.prefix_append _ _)) hempty

/-- The place of a file is free as long as it has not been written. -/
theorem Filled.get?_eq_none (h : Filled t₀ dir done t) (hfits : Fits t₀ dir steps)
    (hapart : ∀ file ∈ done, Apart file.1 steps) : t.get? (t₀.placeOf dir ++ steps) = none := by
  rcases h.changed (t₀.placeOf dir ++ steps) with
    hsame | ⟨file, hfile, before, hbefore, heq, -⟩ | ⟨file, hfile, heq⟩
  · exact hsame.trans (h.vacant hfits.ne_nil)
  · have hdrop : ∀ name ∈ file.1.dropLast, IsStep name := fun name hname =>
      (h.fits file hfile).isStep name (List.dropLast_subset _ hname)
    have hinit := hfits.prefix_of_after_eq hdrop hbefore heq
    exact absurd (hinit.trans (List.dropLast_prefix file.1)) (hapart file hfile).2
  · exact absurd (List.append_cancel_left heq ▸ List.prefix_rfl) (hapart file hfile).1

/-- **A tree that is ready for a file**: the directories on the way to it are there, its place is
free, and nothing else has changed. -/
structure Ready (t₀ : FileTree) (dir : Path) (steps : List String) (t t₁ : FileTree) : Prop where
  /-- The working directory is the same. -/
  working : t₁.working = t.working
  /-- The place of the file is free. -/
  free : t₁.get? (t₀.placeOf dir ++ steps) = none
  /-- The directories are there. -/
  directories : ∀ before, before <+: dir.parts ++ steps.dropLast →
    t₁.get? ((t₀.start dir).after before) = some .directory
  /-- What was there is there. -/
  mono : ∀ {place e}, t.get? place = some e → t₁.get? place = some e
  /-- Everything else is as it was. -/
  others : ∀ place, t₁.get? place = t.get? place ∨
    ∃ before, before <+: dir.parts ++ steps.dropLast ∧ (t₀.start dir).after before = place
  /-- No file has been written. -/
  files : ∀ out, t₁.filesBelow out = t.filesBelow out

/-- What is on the way to a file is not the file. -/
theorem Fits.after_ne (h : Fits t₀ dir steps) (hbefore : before <+: dir.parts ++ steps.dropLast) :
    (t₀.start dir).after before ≠ t₀.placeOf dir ++ steps := by
  intro heq
  have hdrop : ∀ name ∈ steps.dropLast, IsStep name := fun name hname =>
    h.isStep name (List.dropLast_subset _ hname)
  have hlength := (h.prefix_of_after_eq hdrop hbefore heq).length_le
  rw [List.length_dropLast] at hlength
  have hpos := List.length_pos_iff.mpr h.ne_nil
  omega

/-- **The directories on the way to a file** are made. -/
theorem Filled.ready (h : Filled t₀ dir done t) (hfits : Fits t₀ dir steps)
    (hapart : ∀ file ∈ done, Apart file.1 steps) :
    (t.makeDirectories (t₀.start dir) (dir.parts ++ steps.dropLast)).1 =
        some ((t₀.start dir).after (dir.parts ++ steps.dropLast)) ∧
      Ready t₀ dir steps t
        (t.makeDirectories (t₀.start dir) (dir.parts ++ steps.dropLast)).2 := by
  obtain ⟨hlast, hdirectories, hfiles⟩ := makeDirectories_of_isPassable
    fun before hbefore hne => h.isPassable hfits hapart hbefore hne
  obtain ⟨hworking, -, hchanged⟩ :=
    makeDirectories_changes t (t₀.start dir) (dir.parts ++ steps.dropLast)
  refine ⟨hlast, hworking, ?_, fun before hbefore => ?_,
    fun hget => get?_makeDirectories hget _ _, fun place => ?_, hfiles⟩
  · refine Decidable.byContradiction fun hne => ?_
    have hfree := h.get?_eq_none hfits hapart
    obtain ⟨⟨before, hbefore, heq⟩, -⟩ := hchanged _ (hfree.symm ▸ hne)
    exact hfits.after_ne hbefore heq.symm
  · by_cases hne : before = []
    · subst hne
      exact get?_makeDirectories (h.mono hfits.root) _ _
    · exact hdirectories before hbefore hne
  · refine Decidable.or_iff_not_imp_left.mpr fun hne => ?_
    obtain ⟨⟨before, hbefore, heq⟩, -⟩ := hchanged place hne
    exact ⟨before, hbefore, heq.symm⟩

/-- **A file that can be written is written**, except for a text that cannot be encoded. -/
theorem Filled.write_eq (h : Filled t₀ dir done t) (hfits : Fits t₀ dir steps)
    (hapart : ∀ file ∈ done, Apart file.1 steps) (text : String) :
    ∃ t₁, Ready t₀ dir steps t t₁ ∧ t.write (dir.below steps) text =
      (Text.isEncodable text, t₁.put (t₀.placeOf dir ++ steps) (.file (keptText text))) := by
  obtain ⟨hlast, hready⟩ := h.ready hfits hapart
  refine ⟨_, hready, ?_⟩
  have hsize : Text.byteSize ((t₀.placeOf dir ++ steps).getLast?.getD "") ≤ nameLimit := by
    rw [List.getLast?_append_of_ne_nil _ hfits.ne_nil]
    exact hfits.size_le
  rw [write_below_eq hfits.ne_nil hfits.isStep, Path.isUsable_parent hfits.isUsable, hfits.isUsable,
    h.placeOf_eq, h.start_eq]
  generalize t.makeDirectories (t₀.start dir) (dir.parts ++ steps.dropLast) = made at hlast hready ⊢
  obtain ⟨found, t₁⟩ := made
  dsimp only at hlast hready ⊢
  rw [hlast]
  show t₁.writeAt (t₀.placeOf dir ++ steps) text = _
  rw [writeAt, hready.free, if_neg (by simpa using hsize), keptText]
  cases Text.isEncodable text <;> rfl

/-- **The inventory goes on with a file that is written.** -/
theorem Filled.concat (h : Filled t₀ dir done t) (hfits : Fits t₀ dir steps) (text : String)
    (hready : Ready t₀ dir steps t t₁) :
    Filled t₀ dir (done ++ [(steps, text)])
      (t₁.put (t₀.placeOf dir ++ steps) (.file text)) := by
  have hhere := get?_put_self t₁ (.file text) (ne_nil_of_get?_eq_none hready.free)
  have hkept₁ : ∀ {place e}, t₁.get? place = some e →
      (t₁.put (t₀.placeOf dir ++ steps) (.file text)).get? place = some e := by
    intro place e hget
    rw [get?_put_of_ne t₁ _ fun heq => ?_, hget]
    rw [heq, hready.free] at hget
    cases hget
  have hkept : ∀ {place e}, t.get? place = some e →
      (t₁.put (t₀.placeOf dir ++ steps) (.file text)).get? place = some e :=
    fun hget => hkept₁ (hready.mono hget)
  refine ⟨hready.working.trans h.working, fun hget => hkept (h.mono hget), h.vacant, ?_, ?_,
    fun place => ?_, ?_, ?_⟩
  · exact List.forall_mem_append.mpr ⟨h.fits, List.forall_mem_singleton.mpr hfits⟩
  · rw [filesBelow_put_file hready.free, hready.files, h.files, List.reverse_append]
    rfl
  · by_cases hplace : place = t₀.placeOf dir ++ steps
    · exact .inr (.inr ⟨(steps, text), by simp, hplace.symm⟩)
    rcases hready.others place with hsame | ⟨before, hbefore, rfl⟩
    · rw [get?_put_of_ne t₁ _ hplace, hsame]
      refine (h.changed place).imp_right (Or.imp ?_ ?_)
      · rintro ⟨file, hfile, hway⟩
        exact ⟨file, List.mem_append_left _ hfile, hway⟩
      · rintro ⟨file, hfile, heq⟩
        exact ⟨file, List.mem_append_left _ hfile, heq⟩
    · exact .inr (.inl ⟨(steps, text), by simp, before, hbefore, rfl,
        hkept₁ (hready.directories before hbefore)⟩)
  · exact List.forall_mem_append.mpr ⟨fun file hfile => hkept (h.get? file hfile),
      List.forall_mem_singleton.mpr hhere⟩
  · exact List.forall_mem_append.mpr
      ⟨fun file hfile before hbefore => hkept (h.leads file hfile before hbefore),
        List.forall_mem_singleton.mpr fun before hbefore =>
          hkept₁ (hready.directories before hbefore)⟩

/-- **Files that can be written one by one are written one after another**, up to the first text
that cannot be encoded, if none of them is on the way to another one. -/
theorem Filled.writeAll (h : Filled t₀ dir done t) (hfits : ∀ file ∈ files, Fits t₀ dir file.1)
    (hapart : (done.map Prod.fst ++ files.map Prod.fst).Pairwise Apart) :
    (t.writeAll (files.map fun file => (dir.below file.1, file.2))).1 =
        files.all (Text.isEncodable ·.2) ∧
      Filled t₀ dir (done ++ kept files)
        (t.writeAll (files.map fun file => (dir.below file.1, file.2))).2 := by
  induction files generalizing t done with
  | nil => exact ⟨rfl, (List.append_nil done).symm ▸ h⟩
  | cons file rest ih =>
    obtain ⟨steps, text⟩ := file
    obtain ⟨hfirst, hrest⟩ := List.forall_mem_cons.mp hfits
    have hdone : ∀ file ∈ done, Apart file.1 steps := fun file hfile =>
      (List.pairwise_append.mp hapart).2.2 file.1 (List.mem_map_of_mem hfile) steps
        List.mem_cons_self
    obtain ⟨t₁, hready, hwrite⟩ := h.write_eq hfirst hdone text
    rw [List.map_cons, FileTree.writeAll, hwrite, List.all_cons, kept]
    cases hencodable : Text.isEncodable text with
    | false =>
      -- The file is left empty, and the rest is not written.
      have hkept : keptText text = "" := by simp [keptText, hencodable]
      exact ⟨rfl, hkept ▸ h.concat hfirst (keptText text) hready⟩
    | true =>
      have hkept : keptText text = text := by simp [keptText, hencodable]
      rw [hkept]
      have hall := ih (h.concat hfirst text hready) hrest (by simpa using hapart)
      rw [List.append_assoc] at hall
      exact hall

/-- Names are followed where all places on the way are directories. -/
theorem follow_eq_some
    (h : ∀ before, before <+: names.dropLast → t.get? (place.after before) = some .directory) :
    t.follow place names = some (place.after names) := by
  induction names generalizing place with
  | nil => rfl
  | cons name rest ih =>
    have hhere : t.get? place = some .directory := h [] List.nil_prefix
    rw [follow, if_pos hhere]
    cases rest with
    | nil => rfl
    | cons next rest =>
      exact ih fun before hbefore => h (name :: before) (List.cons_prefix_cons.mpr ⟨rfl, hbefore⟩)

/-- **A file that has been written is read back** from its path. -/
theorem Filled.read_eq (h : Filled t₀ dir done t) (hfile : file ∈ done) :
    t.read (dir.below file.1) = some file.2 := by
  have hfits := h.fits file hfile
  have hstart : t.start (dir.below file.1) = t₀.start dir := h.start_eq
  have hdrop : (dir.parts ++ file.1).dropLast = dir.parts ++ file.1.dropLast :=
    List.dropLast_append_of_ne_nil hfits.ne_nil
  have hfollow :
      t.follow (t₀.start dir) (dir.parts ++ file.1) = some (t₀.placeOf dir ++ file.1) := by
    rw [follow_eq_some (hdrop ▸ h.leads file hfile), after_append_eq_placeOf hfits.isStep]
  have hthere : (t.follow (t.start (dir.below file.1)) (dir.below file.1).parts).bind t.get? =
      some (.file file.2) := by
    rw [hstart, Path.below, hfollow, Option.bind_some, h.get? file hfile]
  rw [read, hfits.isUsable, hthere]
  rfl

end Filled

end FileTree

end ComponentBindings
