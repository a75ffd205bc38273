import ComponentBindings.Command.Bundled
import ComponentBindings.Command.Run

/-!
# The program

The program does on the file system what `runProgram` says about a file tree:
it reads the document, carries out the plan of the command, and ends with the
exit status of the command. What is wrong, and what has been done, is
reported on the standard error output. What comes from outside is characters,
which are made into texts of code points, and back on the way out.
-/

namespace ComponentBindings

/-- The variable of the environment that gives a base package. -/
def basePackageVariable : String := "WIT2SCALA_BASE_PACKAGE"

/-- A file is written, with the directories that lead to it, and whether that
succeeds. -/
def writeToDisk (path : Path) (text : String) : IO Bool := do
  try
    if !path.parent.isUsable then throw (IO.userError "unusable path")
    IO.FS.createDirAll (Text.characters path.parent.text)
    if !path.isUsable then throw (IO.userError "unusable path")
    let encodable := Text.isEncodable text
    IO.FS.writeFile (Text.characters path.text) (if encodable then Text.characters text else "")
    return encodable
  catch e =>
    IO.eprintln ("Failed to write output: " ++ toString e)
    return false

/-- A plan is carried out. -/
def Plan.execute (p : Plan) (l : Libraries) (verbose : Bool) : IO UInt32 := do
  IO.print (Text.characters (p.output l))
  if !p.isPrintable then return writeFailure.toUInt32
  for (path, text) in p.writes do
    if ← writeToDisk path text then
      if verbose then IO.eprintln (Text.characters ("Wrote " ++ path.text))
    else return writeFailure.toUInt32
  return 0

/-- A command is run. -/
def Command.execute (c : Command) (l : Libraries) : IO UInt32 := do
  let path := Text.characters c.document.text
  let text ← try (some ∘ Text.ofCharacters) <$> IO.FS.readFile path catch _ => pure none
  match c.plan l (if c.document.isUsable then text else none) with
  | .ok plan =>
    let verbose := match c with
      | .generate _ s => s.verbose
      | .worlds _ => false
    plan.execute l verbose
  | .error refusal =>
    IO.eprintln (Text.characters refusal.message)
    return refusal.exitCode.toUInt32

end ComponentBindings

open ComponentBindings in
/-- The program with its arguments. -/
def main (arguments : List String) : IO UInt32 := do
  let l := Libraries.bundled
  let environment := (← IO.getEnv basePackageVariable).map Text.ofCharacters
  match l.command environment (arguments.map Text.ofCharacters) with
  | .ok c => c.execute l
  | .error e =>
    IO.eprintln (Text.characters e.message)
    return e.exitCode.toUInt32
