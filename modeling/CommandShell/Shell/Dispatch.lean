/-
CommandShell.Shell.Dispatch — running one command.

A command whose first word names a builtin is handled in the shell; any
other is a program that is searched for and run. Every failure on the way is
reported in one line, and its status becomes the status of the command. The
streams are supposed to take what is written; a text that they refuse is a
failure that there is no report of (`CommandShell.Shell.Delivery`).
-/
import CommandShell.Builtin.Standard
import CommandShell.Process

namespace CommandShell.Shell

/-- What is seen of a builtin that ran to its end: its texts, where they are
not empty. -/
def resultEvents (result : CommandResult) : Transcript :=
  (if result.output = "" then [] else [.output result.output]) ++
    (if result.errors = "" then [] else [.errors result.errors])

/-- Runs a builtin. A failure of the builtin is caught and reported, while its
texts are written outside of that, to streams that are supposed to take them. -/
def runBuiltin (shell : Shell) (entry : Registry.Entry Action) (name : String)
    (operands : List String) : Outcome :=
  let (after, reply) := entry.handler.perform shell name operands
  match reply with
  | .done result => ⟨after, resultEvents result, .returned result.status⟩
  | .failed fault => after.report (.ofFault fault (name :: operands))
  | .crashed message =>
    (after.report (.unforeseen message (name :: operands))).after
      [.log .dispatcher ("builtin " ++ entry.name ++ " raised")]
  | .leave status => ⟨after, [], .left status⟩

/-- What follows from the way a program ended. -/
def concludeChild (shell : Shell) (command : String) (ending : ChildEnding) : Outcome :=
  match ending with
  | .exited code => ⟨shell, [], .returned code⟩
  | .signalled signal =>
    ⟨shell, [.log .dispatcher (command ++ " terminated by signal " ++ toString signal)],
      .returned ending.status⟩
  | .execFailed reason errno =>
    if errno = some .enoent then
      shell.report (.ofFault ⟨.commandNotFound, some command⟩ [command])
    else shell.report (.ofFault ⟨.permissionDenied reason, some command⟩ [command])
  | .spawnFailed reason _ =>
    shell.report (.ofFault ⟨.spawnFailed reason, some command⟩ [command])

/-- Searches for a program and runs it with the variables of the shell. -/
def runExternal (shell : Shell) (command : String) (operands : List String) : Outcome :=
  let resolution := shell.searchPath.resolve shell.environment shell.world command
  let shell := { shell with searchPath := resolution.searchPath }
  match resolution.location with
  | none =>
    (shell.report (.ofFault ⟨.commandNotFound, some command⟩ [command])).after
      resolution.transcript
  | some location =>
    let (seen, ending) :=
      launch shell.world ⟨location, command :: operands, shell.environment.lines⟩
    (shell.concludeChild command ending).after (resolution.transcript ++ seen)

/-- Runs a command whose words are prepared; one without words does nothing. -/
def runPrepared (shell : Shell) (words : List String) : Outcome :=
  match words with
  | [] => ⟨shell, [], .returned 0⟩
  | command :: operands =>
    match shell.builtins.lookup command with
    | some entry =>
      (shell.runBuiltin entry command operands).after
        [.log .dispatcher ("builtin " ++ entry.name ++ " " ++ Text.quotedList operands)]
    | none => shell.runExternal command operands

/-- Prepares and runs a command. Its status becomes the last status, unless
the shell is being left. -/
def runCommand (shell : Shell) (words : List String) : Outcome :=
  let prepared := shell.prepare words
  ((shell.runPrepared prepared).after [.dispatch prepared]).andThen fun shell status =>
    ⟨{ shell with lastStatus := status }, [], .returned status⟩

end CommandShell.Shell
