import ComponentBindings.Command.Bundled
import ComponentBindings.Proofs.Emission

/-!
# The switch for a dry run

What is relied on of libraries is that arguments with the switch for a dry run among them say the
command that they say without it, as a dry run, and if they are refused, are refused for the same
reason (`Libraries.TakesDryRun`); and that they read the name of a command and print a line as they
should (`Libraries.Reliable`).

The libraries of the program do. There, every option changes settings, and none of them looks at the
others: what an option does to the settings of a dry run is what it does to the same settings
otherwise. So the switch may stand wherever an option may (`takesOption`,
`Libraries.takesDryRun_bundled`).
-/

namespace ComponentBindings

/-- The settings for a dry run. -/
def Settings.dry (s : Settings) : Settings := { s with dryRun := true }

/-- A command as a dry run, if it writes files at all. -/
def Command.dry : Command → Command
  | generate document s => generate document s.dry
  | worlds document => worlds document

/-- **Libraries that keep to what they are for**, as far as the program relies on it. -/
structure Libraries.Reliable (l : Libraries) : Prop where
  /-- Arguments behind the name of the command say that command, unless they are refused. -/
  generate : ∀ {environment arguments c},
    l.command environment ("generate" :: arguments) = .ok c → ∃ document s, c = .generate document s
  /-- A line without an escape character is printed as it is. -/
  echo : ∀ {line}, Text.escapeChar ∉ line.toList → l.echo line = line

/-- **The switch for a dry run may stand between arguments**: with it they say the same command as a
dry run, or are refused for the same reason. -/
def Libraries.TakesDryRun (l : Libraries) (environment : Option String)
    (front arguments : List String) : Prop :=
  l.command environment ("generate" :: front ++ "--dry-run" :: arguments) =
    Command.dry <$> l.command environment ("generate" :: front ++ arguments)

/-! ## Options -/

/-- A change of settings that is the same in a dry run. -/
def KeepsDry (set : Settings → Settings) : Prop := ∀ s, set s.dry = (set s).dry

/-- One change after another. -/
theorem KeepsDry.comp {set next : Settings → Settings} (h : KeepsDry next) (h' : KeepsDry set) :
    KeepsDry (next ∘ set) := by
  intro s
  rw [Function.comp_apply, h', h, Function.comp_apply]

/-- An option that does the same in a dry run. -/
def OptionForm.KeepsDry : OptionForm → Prop
  | switch set => ComponentBindings.KeepsDry set
  | value set => ∀ v, ComponentBindings.KeepsDry (set v)

/-- An argument that does the same in a dry run. -/
def OptionReading.KeepsDry : OptionReading → Prop
  | complete set => ComponentBindings.KeepsDry set
  | awaiting _ set => ∀ v, ComponentBindings.KeepsDry (set v)

/-- Options that do the same in a dry run. -/
structure OptionTable.KeepsDry (table : OptionTable) : Prop where
  /-- Those with a long name do. -/
  named : ∀ {name form}, table.named name = some form → form.KeepsDry
  /-- Those with a letter do. -/
  lettered : ∀ {letter form}, table.lettered letter = some form → form.KeepsDry

/-- **The options for generating source files do the same in a dry run.** -/
theorem OptionTable.keepsDry_generate : OptionTable.generate.KeepsDry where
  named {name form} h := by
    unfold generate at h
    dsimp only at h
    split at h <;> cases h
    · exact fun _ _ => rfl
    · exact fun _ _ => rfl
    · exact fun _ _ => rfl
    · exact fun _ => rfl
    · exact fun _ => rfl
    · exact fun _ => rfl
    · exact fun _ => rfl
  lettered {letter form} h := by
    unfold generate at h
    dsimp only at h
    split at h <;> cases h
    · exact fun _ _ => rfl
    · exact fun _ _ => rfl
    · exact fun _ _ => rfl
    · exact fun _ => rfl

section Arguments

variable {table : OptionTable} {set : Settings → Settings} {reading : OptionReading}

/-- Letters do the same in a dry run. -/
theorem keepsDry_of_readLetters (h : table.KeepsDry) {letters : List Char} (hset : KeepsDry set)
    (hread : readLetters table set letters = .ok reading) : reading.KeepsDry := by
  induction letters generalizing set with
  | nil =>
    obtain rfl := Except.ok.inj hread
    exact hset
  | cons letter rest ih =>
    rw [readLetters] at hread
    split at hread
    · cases hread
    · next next hletter => exact ih ((h.lettered hletter).comp hset) hread
    · next next hletter =>
      have hnext : ∀ v, KeepsDry (next v ∘ set) := fun v => (h.lettered hletter v).comp hset
      split at hread <;> obtain rfl := Except.ok.inj hread
      · exact hnext
      · exact hnext _

/-- The change of nothing is the same in a dry run. -/
theorem keepsDry_id : KeepsDry id := fun _ => rfl

/-- An argument with options does the same in a dry run. -/
theorem keepsDry_of_readOption (h : table.KeepsDry) {argument : String}
    (hread : readOption table argument = .ok reading) : reading.KeepsDry := by
  unfold readOption at hread
  dsimp only at hread
  split at hread
  · next hnamed _ =>
    obtain rfl := Except.ok.inj hread
    exact h.named hnamed
  · cases hread
  · next hnamed _ =>
    obtain rfl := Except.ok.inj hread
    exact h.named hnamed _
  · next hnamed _ =>
    obtain rfl := Except.ok.inj hread
    exact h.named hnamed
  · split at hread
    · cases hread
    · exact keepsDry_of_readLetters h keepsDry_id hread

/-- **Arguments are read alike for a dry run.** -/
theorem readArguments_dry (h : table.KeepsDry) (s : Settings) (arguments : List String) :
    readArguments table s.dry arguments =
      (fun read => (read.1.dry, read.2)) <$> readArguments table s arguments := by
  induction s, arguments using readArguments.induct table with
  | case1 s => simp [readArguments, Functor.map, Except.map]
  | case2 s rest => simp [readArguments, Functor.map, Except.map]
  | case3 s argument rest hdashes hoption e hread =>
    simp [readArguments, hdashes, hoption, hread, Functor.map, Except.map]
  | case4 s argument rest hdashes hoption set hread ih =>
    have hset : KeepsDry set := keepsDry_of_readOption h hread
    simp [readArguments, hdashes, hoption, hread, hset s, ih]
  | case5 s argument hdashes hoption name set hread =>
    simp [readArguments, hdashes, hoption, hread, Functor.map, Except.map]
  | case6 s argument hdashes hoption name set hread v rest ih =>
    have hset : KeepsDry (set v) := keepsDry_of_readOption h hread v
    simp [readArguments, hdashes, hoption, hread, hset s, ih]
  | case7 s argument rest hdashes hoption ih =>
    simp [readArguments, hdashes, hoption, ih]

/-- **Whether an option may stand behind arguments**: the options have not ended, and none of them
waits for its value. -/
def takesOption (table : OptionTable) : List String → Bool
  | [] => true
  | argument :: rest =>
    if argument = "--" then false
    else if isOption argument then
      match readOption table argument with
      | .error _ => true
      | .ok (.complete _) => takesOption table rest
      | .ok (.awaiting _ _) =>
        match rest with
        | [] => false
        | _ :: rest => takesOption table rest
    else takesOption table rest

/-- **Arguments are read one part after the other** if an option may stand between the parts. -/
theorem readArguments_append {front : List String} (h : takesOption table front = true)
    (s : Settings) (arguments : List String) :
    readArguments table s (front ++ arguments) = (do
      let read ← readArguments table s front
      let more ← readArguments table read.1 arguments
      return (more.1, read.2 ++ more.2)) := by
  induction s, front using readArguments.induct table with
  | case1 s =>
    show readArguments table s arguments = id <$> readArguments table s arguments
    rw [id_map]
  | case2 s rest =>
    rw [takesOption.eq_def] at h
    simp at h
  | case3 s argument rest hdashes hoption e hread =>
    simp only [List.cons_append, readArguments, hdashes, hoption, hread, if_true, if_false]
    rfl
  | case4 s argument rest hdashes hoption set hread ih =>
    rw [takesOption.eq_def] at h
    simp only [hdashes, hoption, hread, if_true, if_false] at h
    simp only [List.cons_append, readArguments, hdashes, hoption, hread, if_true, if_false, ih h]
  | case5 s argument hdashes hoption name set hread =>
    simp [takesOption, hdashes, hoption, hread] at h
  | case6 s argument hdashes hoption name set hread v rest ih =>
    rw [takesOption.eq_def] at h
    simp only [hdashes, hoption, hread, if_true, if_false] at h
    simp only [List.cons_append, readArguments, hdashes, hoption, hread, if_true, if_false, ih h]
  | case7 s argument rest hdashes hoption ih =>
    rw [takesOption.eq_def] at h
    simp only [hdashes, hoption, if_false] at h
    simp [readArguments, hdashes, hoption, ih h]

end Arguments

/-- **Arguments with the switch for a dry run among them** say the same command as a dry run. -/
theorem Command.ofArguments_dryRun {front : List String} (h : takesOption .generate front = true)
    (environment : Option String) (arguments : List String) :
    Command.ofArguments environment ("generate" :: front ++ "--dry-run" :: arguments) =
      Command.dry <$> Command.ofArguments environment ("generate" :: front ++ arguments) := by
  have hswitch : ∀ s, readArguments .generate s ("--dry-run" :: arguments) =
      readArguments .generate s.dry arguments := fun _ => rfl
  show Command.named environment "generate" (front ++ "--dry-run" :: arguments) =
    Command.dry <$> Command.named environment "generate" (front ++ arguments)
  unfold Command.named
  rw [if_pos rfl, if_pos rfl, readArguments_append h, readArguments_append h]
  simp only [hswitch, readArguments_dry OptionTable.keepsDry_generate, map_bind, bind_map_left,
    bind_assoc, pure_bind, map_pure]
  rfl

/-! ## The libraries of the program -/

/-- **The libraries of the program are reliable.** -/
theorem Libraries.reliable_bundled : bundled.Reliable where
  generate {environment arguments c} h := by
    change Command.named environment "generate" arguments = .ok c at h
    rw [Command.named, if_pos rfl] at h
    obtain ⟨read, -, h⟩ := except_bind_eq_ok.mp h
    obtain ⟨document, -, h⟩ := except_bind_eq_ok.mp h
    exact ⟨document, read.1, (Except.ok.inj h).symm⟩
  echo {line} h := by
    show Text.withoutControl line = line
    rw [Text.withoutControl, Text.withoutControlAfter_of_notMem h, String.ofList_toList]

/-- **The switch for a dry run may stand wherever an option may.** -/
theorem Libraries.takesDryRun_bundled {front : List String}
    (h : takesOption .generate front = true) (environment : Option String)
    (arguments : List String) : bundled.TakesDryRun environment front arguments :=
  Command.ofArguments_dryRun h environment arguments

end ComponentBindings
