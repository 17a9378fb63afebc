/-
CommandShell.Builtin.Alias — defining and showing aliases.

Operands take effect from left to right, so a definition is seen by the
look-ups after it in the same command.
-/
import CommandShell.Alias.Operand
import CommandShell.Shell.State

namespace CommandShell.Builtin

/-- Handles one operand, given the aliases and the result so far. -/
def aliasStep (shell : Shell) (table : AliasTable) (result : CommandResult) :
    AliasOperand → AliasTable × CommandResult
  | .define name value => (table.define name value, result)
  | .lookup name =>
    match table.find? name with
    | some value =>
      (table, { result with output := result.output ++ aliasDefinition name value ++ "\n" })
    | none =>
      (table, { result with
        errors := result.errors ++
          shell.diagnosticLine { reason := name ++ " not found", status := 1, command := "alias" }
        status := 1 })

/-- Handles operands from left to right. -/
def aliasSteps (shell : Shell) (table : AliasTable) (result : CommandResult) :
    List AliasOperand → AliasTable × CommandResult
  | [] => (table, result)
  | operand :: rest =>
    let (table, result) := aliasStep shell table result operand
    aliasSteps shell table result rest

/-- Defines and shows the aliases that the operands name, or shows all. -/
def aliases (shell : Shell) (operands : List String) : Shell × Reply :=
  match operands with
  | [] => (shell, .done { output := String.join (shell.aliases.definitions.map (· ++ "\n")) })
  | _ :: _ =>
    let (aliases, result) := aliasSteps shell shell.aliases {} (AliasOperand.ofWords operands)
    ({ shell with aliases }, .done result)

end CommandShell.Builtin
