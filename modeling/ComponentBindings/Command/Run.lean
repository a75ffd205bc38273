import ComponentBindings.Command
import ComponentBindings.FileTree

/-!
# Runs

A run of the program on a file tree: from the arguments to what is printed,
to the exit status and to the file tree that it leaves.
-/

namespace ComponentBindings

/-- **How a run ends.** -/
structure Outcome where
  /-- The exit status. -/
  exitCode : Nat
  /-- What is printed. -/
  output : String := ""
  /-- The file tree that is left. -/
  tree : FileTree
  deriving Repr

/-- The exit status when a line cannot be printed or a file cannot be
written. -/
def writeFailure : Nat := 1

/-- A plan is carried out. -/
def Plan.run (p : Plan) (l : Libraries) (t : FileTree) : Outcome :=
  if p.isPrintable then
    let (succeeded, tree) := t.writeAll p.writes
    { exitCode := if succeeded then 0 else writeFailure, output := p.output l, tree }
  else { exitCode := writeFailure, output := p.output l, tree := t }

/-- What libraries print does not matter for the file tree. -/
theorem Plan.tree_run (p : Plan) (l : Libraries) (t : FileTree) :
    (p.run l t).tree = if p.isPrintable then (t.writeAll p.writes).2 else t := by
  unfold run
  split <;> rfl

/-- **A command is run**: its document is read, and its plan is carried out
if there is one. -/
def Command.run (c : Command) (l : Libraries) (t : FileTree) : Outcome :=
  match c.plan l (t.read c.document) with
  | .ok plan => plan.run l t
  | .error refusal => { exitCode := refusal.exitCode, tree := t }

/-- The program is run with arguments and the base package of the
environment. -/
def runProgram (l : Libraries) (environment : Option String) (arguments : List String)
    (t : FileTree) : Outcome :=
  match l.command environment arguments with
  | .ok c => c.run l t
  | .error e => { exitCode := e.exitCode, tree := t }

end ComponentBindings
