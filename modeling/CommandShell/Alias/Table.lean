/-
CommandShell.Alias.Table — aliases and what they do to a command.

An alias replaces the first word of a command by the words of its value,
once: the result is not looked up again, so an alias may name itself.
-/
import CommandShell.Bindings
import CommandShell.Text.Blank

namespace CommandShell

/-- The definition of an alias in the form in which it is shown. -/
def aliasDefinition (name value : String) : String :=
  name ++ "='" ++ value ++ "'"

/-- Aliases in order of first definition. -/
structure AliasTable where
  entries : Bindings String := []
  deriving Repr, DecidableEq

namespace AliasTable

/-- The value of an alias. -/
def find? (table : AliasTable) (name : String) : Option String :=
  table.entries.find? name

/-- Defines an alias; one that exists gets the new value at its place. -/
def define (table : AliasTable) (name value : String) : AliasTable :=
  ⟨table.entries.insert name value⟩

/-- Takes an alias out. -/
def remove (table : AliasTable) (name : String) : AliasTable :=
  ⟨table.entries.erase name⟩

/-- The definitions of all aliases as they are shown. -/
def definitions (table : AliasTable) : List String :=
  table.entries.map fun (name, value) => aliasDefinition name value

/-- The words of a command after alias expansion. -/
def expand (table : AliasTable) : List String → List String
  | [] => []
  | command :: operands =>
    match table.find? command with
    | some value => Text.wordsOf value ++ operands
    | none => command :: operands

end AliasTable

end CommandShell
