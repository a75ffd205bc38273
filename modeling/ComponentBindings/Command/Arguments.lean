import ComponentBindings.Command

/-!
# Arguments

The arguments of the program name a command, and then its document and its
options in any order. An option has a long name behind two dashes or a letter
behind one, and is a switch or has a value. The value is the next argument,
or it is attached: behind `=` to a long name, and directly to a letter.
Several letters can share one dash. Two dashes alone end the options. Of two
options that set the same thing the last one counts.
-/

namespace ComponentBindings

/-- What an option does to the settings. -/
inductive OptionForm where
  /-- A switch. -/
  | switch (set : Settings → Settings)
  /-- An option with a value. -/
  | value (set : String → Settings → Settings)

/-- The option for the output directory. -/
def OptionForm.outDir : OptionForm := .value fun dir s => { s with outDir := .ofString dir }

/-- The option for the base package. -/
def OptionForm.basePackage : OptionForm := .value fun name s => { s with basePackage := name }

/-- The option for the world. -/
def OptionForm.world : OptionForm := .value fun name s => { s with world := some name }

/-- The switch that has every file that is written reported. -/
def OptionForm.verbose : OptionForm := .switch fun s => { s with verbose := true }

/-- The options that a command has, by name and by letter. -/
structure OptionTable where
  /-- The option with a long name. -/
  named : String → Option OptionForm
  /-- The option with a letter. -/
  lettered : Char → Option OptionForm

/-- No options. -/
def OptionTable.empty : OptionTable := ⟨fun _ => none, fun _ => none⟩

/-- The options for generating source files. -/
def OptionTable.generate : OptionTable where
  named
    | "--out-dir" => some .outDir
    | "--base-package" => some .basePackage
    | "--world" => some .world
    | "--header" => some (.switch fun s => { s with header := true })
    | "--no-header" => some (.switch fun s => { s with header := false })
    | "--dry-run" => some (.switch fun s => { s with dryRun := true })
    | "--verbose" => some .verbose
    | _ => none
  lettered
    | 'o' => some .outDir
    | 'p' => some .basePackage
    | 'w' => some .world
    | 'v' => some .verbose
    | _ => none

/-- What an argument with options says: a change of the settings, and with a
value that is still to come, the change for that value. -/
inductive OptionReading where
  /-- The argument is complete. -/
  | complete (set : Settings → Settings)
  /-- The value of the named option is the next argument. -/
  | awaiting (name : String) (set : String → Settings → Settings)

/-- Letters that share a dash. -/
def readLetters (table : OptionTable) (set : Settings → Settings) :
    List Char → Except UsageError OptionReading
  | [] => .ok (.complete set)
  | letter :: rest =>
    match table.lettered letter with
    | none => .error (.unknownOption (String.ofList ['-', letter]))
    | some (.switch next) => readLetters table (next ∘ set) rest
    | some (.value next) =>
      if rest.isEmpty then .ok (.awaiting (String.ofList ['-', letter]) fun v => next v ∘ set)
      else .ok (.complete (next (String.ofList rest) ∘ set))

/-- The text before the first equals sign, and the text behind it if there is
one. -/
def splitValue (text : List Char) : String × Option String :=
  (String.ofList (text.takeWhile (· ≠ '=')),
   match text.dropWhile (· ≠ '=') with
   | [] => none
   | _ :: value => some (String.ofList value))

/-- An argument that starts with a dash and goes on. -/
def readOption (table : OptionTable) (argument : String) : Except UsageError OptionReading :=
  let (name, attached) := splitValue argument.toList
  match table.named name, attached with
  | some (.switch set), none => .ok (.complete set)
  | some (.switch _), some _ => .error (.unexpectedValue name)
  | some (.value set), some v => .ok (.complete (set v))
  | some (.value set), none => .ok (.awaiting name set)
  | none, _ =>
    match argument.toList with
    | '-' :: '-' :: _ => .error (.unknownOption name)
    | letters => readLetters table id letters.tail

/-- Whether an argument holds options. A dash alone does not. -/
def isOption (argument : String) : Bool :=
  argument.toList.head? = some '-' && 1 < argument.length

/-- The settings and the other arguments of a command. -/
def readArguments (table : OptionTable) (s : Settings) :
    List String → Except UsageError (Settings × List String)
  | [] => .ok (s, [])
  | argument :: rest =>
    if argument = "--" then .ok (s, rest)
    else if isOption argument then
      match readOption table argument with
      | .error e => .error e
      | .ok (.complete set) => readArguments table (set s) rest
      | .ok (.awaiting name set) =>
        match rest with
        | [] => .error (.missingValue name)
        | v :: rest => readArguments table (set v s) rest
    else do
      let (s, others) ← readArguments table s rest
      return (s, argument :: others)

/-- The one document of a command. That a path cannot be one is found before
there are found to be too few or too many. -/
def theDocument (s : Settings) : List String → Except UsageError Path
  | [] => .error (if s.outDir.hasNul then .pathWithNul else .missingDocument)
  | document :: more =>
    let path := Path.ofString document
    if s.outDir.hasNul || path.hasNul then .error .pathWithNul
    else match more with
      | [] => .ok path
      | extra :: _ => .error (.extraArgument extra)

/-- The settings that options change. A base package may come from the
environment; one that is empty counts as none. -/
def Settings.initial (environment : Option String) : Settings :=
  match environment with
  | some name => if name = "" then {} else { basePackage := name }
  | none => {}

/-- A command with its name and its arguments. -/
def Command.named (environment : Option String) (name : String) (arguments : List String) :
    Except UsageError Command := do
  if name = "generate" then
    let (s, others) ← readArguments .generate (.initial environment) arguments
    return .generate (← theDocument s others) s
  else if name = "worlds" then
    let (s, others) ← readArguments .empty {} arguments
    return .worlds (← theDocument s others)
  else if isOption name then throw (.unknownOption name)
  else throw (.unknownCommand name)

/-- **The command that arguments say**, given the base package of the
environment. -/
def Command.ofArguments (environment : Option String) (arguments : List String) :
    Except UsageError Command :=
  let arguments := if arguments.head? = some "--" then arguments.tail else arguments
  match arguments with
  | [] => .error .missingCommand
  | name :: rest => Command.named environment name rest

end ComponentBindings
