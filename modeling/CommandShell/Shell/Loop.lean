/-
CommandShell.Shell.Loop — running lines until there are no more or the shell
is left.

The lines come from a text, a script file, standard input, or a user at a
prompt. All four loops run their lines in the same way; they differ in where
a line ends and in what is shown between lines.
-/
import CommandShell.Shell.Line
import CommandShell.Text.Line
import CommandShell.Text.Utf8

namespace CommandShell

/-- What one attempt to read a line from standard input brings. -/
inductive Read
  /-- A line with its newline, if it has one; an empty text is the end. -/
  | line (text : String)
  | interrupt
  deriving Repr, DecidableEq

namespace Shell

/-- The shell with nothing more to run. -/
def finish (shell : Shell) : Outcome :=
  ⟨shell, [], .returned shell.lastStatus⟩

/-- Runs lines one after the other. -/
def runLines (shell : Shell) : List String → Outcome
  | [] => shell.finish
  | line :: rest => (shell.executeLine line).andThen fun shell _ => runLines shell rest

/-- Runs the lines of a text. -/
def runText (shell : Shell) (text : String) : Outcome :=
  shell.runLines (Text.linesOfText text)

/-- Runs the lines of a stream of which all is there. -/
def runStream (shell : Shell) (text : String) : Outcome :=
  shell.runLines (Text.linesOfStream text)

/-- Reports a script that cannot be opened. -/
def rejectScript (shell : Shell) (path : String) : Outcome :=
  (shell.report (.ofFault ⟨.scriptUnreadable path, none⟩ [])).andThen fun shell status =>
    ⟨{ shell with lastStatus := status }, [], .returned status⟩

/-- Runs the lines of a script file. A file that cannot be opened is
reported; a path that holds NUL names no file at all and breaks the run off. -/
def runScript (shell : Shell) (path : String) : Outcome :=
  match shell.world.read path with
  | .error .embeddedNul => ⟨shell, [], .broken .embeddedNul⟩
  | .error (.system _) => shell.rejectScript path
  | .ok bytes =>
    (shell.runLines (Text.linesOfRawStream (Text.Utf8.decode bytes))).after
      [.log .dispatcher ("running script " ++ path)]

/-- Runs the lines of standard input until its end. An interrupt breaks the
run off. -/
def runInput (shell : Shell) : List Read → Outcome
  | [] => shell.finish.after [.read]
  | .interrupt :: _ => ⟨shell, [.read], .broken .interrupted⟩
  | .line text :: rest =>
    if text = "" then shell.finish.after [.read]
    else
      ((shell.executeLine text).andThen fun shell _ => runInput shell rest).after [.read]

/-- What the user sees before each line. -/
def promptText : String := "$ "

/-- Asks a user for lines until the input ends. An interrupt drops the line
being typed and asks again. -/
def runPrompted (shell : Shell) : List Read → Outcome
  | [] => shell.finish.after [.prompt promptText, .read, .prompt "\n"]
  | .interrupt :: rest =>
    (runPrompted shell rest).after [.prompt promptText, .read, .prompt "\n"]
  | .line text :: rest =>
    if text = "" then shell.finish.after [.prompt promptText, .read, .prompt "\n"]
    else
      ((shell.executeLine (Text.chomp text)).andThen fun shell _ =>
        runPrompted shell rest).after [.prompt promptText, .read]

end Shell

end CommandShell
