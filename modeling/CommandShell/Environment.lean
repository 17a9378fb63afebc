/-
CommandShell.Environment — the variables of the shell, in order.

Names and values are handed to programs as one text, so a name is not empty
and holds no equals sign, and neither may hold the character NUL. A change
that breaks this is refused and leaves the variables as they were.
-/
import CommandShell.Bindings

namespace CommandShell

/-- Whether a text can name a variable. -/
def isValidName (name : String) : Bool :=
  !name.isEmpty && !name.toList.contains '=' && !name.toList.contains '\x00'

/-- Variables with their values, in order of first assignment. -/
structure Environment where
  entries : Bindings String := []
  deriving Repr, DecidableEq

namespace Environment

/-- The pairs whose names are valid; values are taken as they come. -/
def ofPairs (pairs : List (String × String)) : Environment :=
  ⟨(Bindings.ofPairs pairs).filter fun entry => isValidName entry.1⟩

/-- The value of a variable. -/
def get? (env : Environment) (name : String) : Option String :=
  env.entries.find? name

/-- Whether a variable is set. -/
def contains (env : Environment) (name : String) : Bool :=
  env.entries.contains name

/-- The names in order. -/
def names (env : Environment) : List String :=
  env.entries.keys

/-- Sets a variable; refused if the name is not valid or the value holds NUL. -/
def set? (env : Environment) (name value : String) : Option Environment :=
  if isValidName name && !value.toList.contains '\x00' then some ⟨env.entries.insert name value⟩
  else none

/-- Unsets a variable, and tells whether it was set; refused if the name is
not valid. -/
def unset? (env : Environment) (name : String) : Option (Environment × Bool) :=
  if isValidName name then some (⟨env.entries.erase name⟩, env.contains name) else none

/-- One variable as programs and users see it. -/
def line (entry : String × String) : String :=
  entry.1 ++ "=" ++ entry.2

/-- The variables as programs and users see them. -/
def lines (env : Environment) : List String :=
  env.entries.map line

end Environment

end CommandShell
