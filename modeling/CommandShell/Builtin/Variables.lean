/-
CommandShell.Builtin.Variables — showing, setting and unsetting variables.
-/
import CommandShell.Shell.State

namespace CommandShell.Builtin

/-- Shows all variables, one on a line. -/
def env (shell : Shell) (operands : List String) : Reply :=
  match operands with
  | [] => .done { output := String.join (shell.environment.lines.map (· ++ "\n")) }
  | _ :: _ => .failed ⟨.usage "too many arguments", none⟩

/-- Sets a variable to a value. -/
def setenv (shell : Shell) (operands : List String) : Shell × Reply :=
  match operands with
  | [name, value] =>
    match shell.environment.set? name value with
    | some environment => ({ shell with environment }, .done {})
    | none => (shell, .failed .environmentUpdate)
  | _ => (shell, .failed .environmentUpdate)

/-- Unsets a variable, set or not. -/
def unsetenv (shell : Shell) (operands : List String) : Shell × Reply :=
  match operands with
  | [name] =>
    match shell.environment.unset? name with
    | some (environment, _) => ({ shell with environment }, .done {})
    | none => (shell, .failed .environmentUpdate)
  | _ => (shell, .failed .environmentUpdate)

end CommandShell.Builtin
