/-
CommandShell.Proofs.Shell.Session — the states that a shell with the standard
builtins can come to.

A session starts with any variables in any world. After that lines are run,
single commands are run, scripts turn out to be unreadable, and the world
changes in whatever way between two of these; a session goes on also after a
line that leaves the shell, and after one that was refused a text. `Session count shell` counts the lines that were
run on the way.

Two things hold in every state of a session: the builtins are the standard
ones (`Session.builtins`) and the line number is the count
(`Session.lineNumber`).
-/
import CommandShell.Proofs.Shell.Delivery
import CommandShell.Shell.Loop

namespace CommandShell

/-- The shell is in a session in which `count` lines were run so far. -/
inductive Session : Nat → Shell → Prop
  | start (programName : String) (processId : Int) (pairs : List (String × String))
      (world : World) :
      Session 0
        { programName, processId, environment := .ofPairs pairs, world,
          builtins := Builtin.standard }
  | line {count : Nat} {shell : Shell} (h : Session count shell) (line : String) :
      Session (count + 1) (shell.executeLine line).shell
  | delivered {count : Nat} {shell : Shell} (h : Session count shell) (streams : Streams)
      (seen : Transcript) (line : String) :
      Session (count + 1) (shell.deliverLine streams seen line).shell
  | command {count : Nat} {shell : Shell} (h : Session count shell) (words : List String) :
      Session count (shell.runCommand words).shell
  | unreadable {count : Nat} {shell : Shell} (h : Session count shell) (path : String) :
      Session count (shell.rejectScript path).shell
  | world {count : Nat} {shell : Shell} (h : Session count shell) (world : World) :
      Session count { shell with world }

namespace Session

variable {count : Nat} {shell : Shell}

theorem builtins (h : Session count shell) : shell.builtins = Builtin.standard := by
  induction h with
  | start programName processId pairs world => rfl
  | line _ line ih => exact (Shell.frame_executeLine _ line).builtins.trans ih
  | delivered _ streams seen line ih =>
    exact (Shell.frame_deliverLine _ streams seen line).builtins.trans ih
  | command _ words ih => exact (Shell.frame_runCommand _ words).builtins.trans ih
  | unreadable _ path ih => exact ih
  | world _ world ih => exact ih

theorem lineNumber (h : Session count shell) : shell.lineNumber = count := by
  induction h with
  | start programName processId pairs world => rfl
  | line _ line ih => rw [Shell.lineNumber_executeLine, ih]
  | delivered _ streams seen line ih =>
    rw [(Shell.frame_deliverLine _ streams seen line).lineNumber, ih]
  | command _ words ih => exact (Shell.frame_runCommand _ words).lineNumber.trans ih
  | unreadable _ path ih => exact ih
  | world _ world ih => exact ih

end Session

end CommandShell
