import ComponentBindings.Command.Arguments
import ComponentBindings.Document.Yaml.Value
import ComponentBindings.Text.Terminal

/-!
# The libraries of the program

The program runs with a reader of JSON and of most of YAML, with a reader of arguments, and with a
printer that leaves out the control sequences of a terminal. The reader takes plain and quoted
scalars in block and flow collections, and refuses block scalars, tags and directives.
-/

namespace ComponentBindings

/-- The libraries that the program runs with. -/
def Libraries.bundled : Libraries where
  read := Yaml.read
  command := Command.ofArguments
  echo := Text.withoutControl

end ComponentBindings
