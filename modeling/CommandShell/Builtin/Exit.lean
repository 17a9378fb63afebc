/-
CommandShell.Builtin.Exit — leaving the shell.
-/
import CommandShell.ExitStatus
import CommandShell.Shell.State

namespace CommandShell.Builtin

/-- Leaves the shell with the status that the first operand gives, or with
the status of the last command; further operands do not count. -/
def exit (shell : Shell) (operands : List String) : Reply :=
  match operands with
  | [] => .leave shell.lastStatus
  | operand :: _ =>
    match ExitStatus.read operand with
    | .ok status => .leave status
    | .error .illegal => .failed (.illegalNumber operand)
    | .error (.tooManyDigits count) => .crashed (ExitStatus.tooManyDigitsMessage count)

end CommandShell.Builtin
