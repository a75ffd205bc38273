import ComponentBindings.Path

/-!
# File trees

What a file system holds, as a value: directories and files with their
texts. A command is run on a file tree to say what it leaves behind.

A path is followed name by name, and every place on the way has to be a
directory; two dots lead back to the directory around it, and from the root
to the root. A path that is not usable leads nowhere, and a text that cannot
be encoded leaves an empty file.
-/

namespace ComponentBindings

/-- A place in a file tree: the names from the root to it. -/
abbrev Place := List String

/-- What is at a place. -/
inductive Entry where
  /-- A directory. -/
  | directory
  /-- A file with its text. -/
  | file (text : String)
  deriving DecidableEq, Repr

/-- **A file tree**, with a working directory. -/
structure FileTree where
  /-- The directory that paths start at. -/
  working : Place
  /-- The entries below the root. -/
  entries : List (Place × Entry)
  deriving Repr

/-- The most bytes that a name may have. -/
def nameLimit : Nat := 255

/-- The place that a name leads to from a directory. -/
def Place.child (place : Place) (name : String) : Place :=
  if name = ".." then place.dropLast else place ++ [name]

namespace FileTree

/-- What is at a place. The root is a directory. -/
def get? (t : FileTree) (place : Place) : Option Entry :=
  if place = [] then some .directory else t.entries.lookup place

/-- The tree with an entry at a place. -/
def put (t : FileTree) (place : Place) (e : Entry) : FileTree :=
  { t with entries := (place, e) :: t.entries.filter (·.1 ≠ place) }

/-- The place where a path starts. -/
def start (t : FileTree) (p : Path) : Place := if p.slashes = 0 then t.working else []

/-- The place that names lead to from a place. -/
def follow (t : FileTree) (place : Place) : List String → Option Place
  | [] => some place
  | name :: rest =>
    if t.get? place = some .directory then t.follow (Place.child place name) rest else none

/-- **The text of the file** that a path leads to. -/
def read (t : FileTree) (p : Path) : Option String :=
  if !p.isUsable then none
  else match (t.follow (t.start p) p.parts).bind t.get? with
    | some (.file text) => some text
    | _ => none

/-- A directory at a place, which is made if nothing is there. -/
def makeDirectory (t : FileTree) (place : Place) : Option FileTree :=
  match t.get? place with
  | some .directory => some t
  | some (.file _) => none
  | none =>
    if Text.byteSize (place.getLast?.getD "") ≤ nameLimit then some (t.put place .directory)
    else none

/-- The directories that names lead through from a place, all of which are
made if need be, and the place of the last. Those before a failure stay. -/
def makeDirectories (t : FileTree) (place : Place) : List String → Option Place × FileTree
  | [] => (some place, t)
  | name :: rest =>
    match t.makeDirectory (Place.child place name) with
    | some t => t.makeDirectories (Place.child place name) rest
    | none => (none, t)

/-- A text at a place, unless a directory is there. -/
def writeAt (t : FileTree) (place : Place) (text : String) : Bool × FileTree :=
  if t.get? place = some .directory ∨ Text.byteSize (place.getLast?.getD "") > nameLimit then
    (false, t)
  else if Text.isEncodable text then (true, t.put place (.file text))
  else (false, t.put place (.file ""))

/-- **A file is written**, with the directories that lead to it, and whether
that succeeds. -/
def write (t : FileTree) (p : Path) (text : String) : Bool × FileTree :=
  if !p.parent.isUsable then (false, t)
  else match t.makeDirectories (t.start p) p.parts.dropLast, p.parts.getLast? with
    | (some place, t), some name =>
      if p.isUsable then t.writeAt (Place.child place name) text else (false, t)
    | (_, t), _ => (false, t)

/-- Files are written one after the other, up to the first failure. -/
def writeAll (t : FileTree) : List (Path × String) → Bool × FileTree
  | [] => (true, t)
  | (p, text) :: rest =>
    match t.write p text with
    | (true, t) => t.writeAll rest
    | (false, t) => (false, t)

/-- The tree with a working directory, the directories around it, and nothing
else. -/
def empty (working : Place) : FileTree :=
  (FileTree.makeDirectories ⟨working, []⟩ [] working).2

/-- The files below a directory, by the names that lead to them from it. -/
def filesBelow (t : FileTree) (place : Place) : List (List String × String) :=
  t.entries.filterMap fun (there, e) =>
    match e with
    | .file text => if place.isPrefixOf there then some (there.drop place.length, text) else none
    | .directory => none

/-- What is put at a place is there. -/
@[simp] theorem get?_put_self (t : FileTree) {place : Place} (e : Entry) (h : place ≠ []) :
    (t.put place e).get? place = some e := by
  simp [get?, put, h]

/-- Leaving out the entries at one place does not change another place. -/
theorem lookup_filter_of_ne {place other : Place} (h : other ≠ place)
    (entries : List (Place × Entry)) :
    (entries.filter (·.1 ≠ place)).lookup other = entries.lookup other := by
  induction entries with
  | nil => rfl
  | cons head tail ih =>
    obtain ⟨there, e⟩ := head
    by_cases hp : there = place
    · subst hp
      have hb : (other == there) = false := by simp [h]
      simpa [List.lookup_cons, hb] using ih
    · simp only [ne_eq, hp, not_false_eq_true, decide_true, List.filter_cons_of_pos,
        List.lookup_cons]
      rw [ih]

/-- All other places stay as they are. -/
theorem get?_put_of_ne (t : FileTree) {place other : Place} (e : Entry) (h : other ≠ place) :
    (t.put place e).get? other = t.get? other := by
  have hb : (other == place) = false := by simp [h]
  simp only [get?, put, List.lookup_cons, hb, lookup_filter_of_ne h]

end FileTree

end ComponentBindings
