/-
CommandShell.Registry — the table of builtins.

Names are compared exactly. Where two entries have one name, the one
registered first answers for it.
-/

namespace CommandShell

/-- A builtin: its name, what it does, and what is said about it. -/
structure Registry.Entry (Handler : Type) where
  name : String
  handler : Handler
  description : String := ""
  usage : String
  helpText : String := ""

/-- Builtins in order of registration. -/
abbrev Registry (Handler : Type) := List (Registry.Entry Handler)

namespace Registry

variable {Handler : Type}

/-- Adds an entry at the end; without a usage text the name is shown. -/
def register (registry : Registry Handler) (name : String) (handler : Handler)
    (description usage helpText : String) : Registry Handler :=
  registry ++ [⟨name, handler, description, if usage = "" then name else usage, helpText⟩]

/-- The entry that answers for a name. -/
def lookup (registry : Registry Handler) (name : String) : Option (Entry Handler) :=
  registry.find? fun entry => entry.name = name

/-- The names in order of registration. -/
def names (registry : Registry Handler) : List String :=
  registry.map (·.name)

end Registry

end CommandShell
