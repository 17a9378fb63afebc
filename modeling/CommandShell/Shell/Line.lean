/-
CommandShell.Shell.Line — running one line.

The commands of a line are run from left to right. A command after `&&` is
run only if the status so far is zero, one after `||` only if it is not; a
command that is not run leaves the status as it is.
-/
import CommandShell.Shell.Dispatch

namespace CommandShell.Shell

/-- Whether a command is passed over, given the status so far. -/
def skips (connector : Option Operator) (status : Int) : Bool :=
  match connector with
  | some .and => status != 0
  | some .or => status == 0
  | _ => false

/-- Runs commands from left to right, given the status so far. -/
def runCommands (shell : Shell) (status : Int) : List Command → Outcome
  | [] => ⟨shell, [], .returned status⟩
  | command :: rest =>
    if skips command.connector status then runCommands shell status rest
    else (shell.runCommand command.words).andThen fun shell status => runCommands shell status rest

/-- Reports a line that is no list of commands. -/
def rejectLine (shell : Shell) (error : SyntaxError) : Outcome :=
  (shell.report (.ofFault error.fault [])).andThen fun shell status =>
    ⟨{ shell with lastStatus := status }, [], .returned status⟩

/-- Runs a line. -/
def executeLine (shell : Shell) (line : String) : Outcome :=
  let shell := { shell with lineNumber := shell.lineNumber + 1 }
  match Command.ofLine line with
  | .error error => shell.rejectLine error
  | .ok commands => shell.runCommands shell.lastStatus commands

end CommandShell.Shell
