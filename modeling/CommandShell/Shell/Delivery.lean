/-
CommandShell.Shell.Delivery — a run and the streams that it writes to.

What a run writes is in its transcript, and `executeLine` and the loops suppose
that the output streams take all of it. They need not. An encoding may have no
bytes for a character, the reader of a pipe may have gone, a disk may be full;
and the shell writes and flushes its texts outside of everything that makes a
report of a failure. So a run that is refused a text stops there. What the
command has changed stays changed, the last status is not set, and no status
comes of the line or of the loop around it.

The functions below are given the streams (`Streams`) and what came to them so
far. They follow `runCommand`, `runCommands`, `executeLine`, `runLines` and
`runInput` step by step, and come to the same as long as nothing is refused.
The loops over a script file and at a prompt run their lines in the same way and
are not followed.
-/
import CommandShell.Shell.Loop

namespace CommandShell

/-- Whether an event is one that the output streams have a part in. Before a
program is started both are flushed. A message that cannot be written to the
log is dropped there and stops nothing. -/
def Event.isWritten : Event → Bool
  | .output _ | .prompt _ | .errors _ | .spawn _ => true
  | .log _ _ | .dispatch _ | .read => false

/-- The output streams of a shell: whether they take an event, given the events
before it. -/
structure Streams where
  takes : Transcript → Event → Bool

namespace Streams

/-- Streams in ASCII. The output stream refuses a text with any other
character; the error stream has a spelling for each. -/
def ascii : Streams where
  takes
    | _, .output text | _, .prompt text => text.toList.all fun c => c.toNat < 128
    | _, _ => true

/-- The first event of a transcript that the streams refuse, with all that came
to them before it. -/
def refusal? (streams : Streams) (seen : Transcript) : Transcript → Option (Transcript × Event)
  | [] => none
  | event :: rest =>
    if event.isWritten && !streams.takes seen event then some (seen, event)
    else streams.refusal? (seen ++ [event]) rest

end Streams

/-- What a run leaves that writes to streams. -/
inductive Delivery
  /-- The streams took all that there was to write. -/
  | whole (outcome : Outcome)
  /-- They refused an event, and the run stopped in this state. -/
  | refused (shell : Shell) (seen : Transcript) (event : Event)

/-- Brings what can be seen of a step to the streams. A step has changed the
state before it writes anything, so a refusal leaves the state after the step. -/
def Outcome.deliver (streams : Streams) (seen : Transcript) (outcome : Outcome) : Delivery :=
  match streams.refusal? seen outcome.transcript with
  | none => .whole outcome
  | some (seen, event) => .refused outcome.shell seen event

namespace Delivery

/-- The state after a run. -/
def shell : Delivery → Shell
  | .whole outcome => outcome.shell
  | .refused shell _ _ => shell

/-- The event that was refused, if one was, with all that came before it. -/
def refusal? : Delivery → Option (Transcript × Event)
  | .whole _ => none
  | .refused _ seen event => some (seen, event)

/-- The delivery with events before it, which were taken. -/
def after (events : Transcript) : Delivery → Delivery
  | .whole outcome => .whole (outcome.after events)
  | .refused shell seen event => .refused shell seen event

/-- Goes on from a run that returned and was not refused anything. -/
def andThen (seen : Transcript) (delivery : Delivery)
    (next : Transcript → Shell → Int → Delivery) : Delivery :=
  match delivery with
  | .refused shell seen event => .refused shell seen event
  | .whole outcome =>
    match outcome.ending with
    | .left _ | .broken _ => .whole outcome
    | .returned status =>
      (next (seen ++ outcome.transcript) outcome.shell status).after outcome.transcript

/-- Sets the last status where a run returned. -/
def settle (seen : Transcript) (delivery : Delivery) : Delivery :=
  delivery.andThen seen fun _ shell status =>
    .whole ⟨{ shell with lastStatus := status }, [], .returned status⟩

end Delivery

namespace Shell

/-- Prepares and runs a command. -/
def deliverCommand (shell : Shell) (streams : Streams) (seen : Transcript)
    (words : List String) : Delivery :=
  let prepared := shell.prepare words
  (((shell.runPrepared prepared).after [.dispatch prepared]).deliver streams seen).settle seen

/-- Runs commands from left to right, given the status so far. -/
def deliverCommands (shell : Shell) (streams : Streams) (seen : Transcript) (status : Int) :
    List Command → Delivery
  | [] => .whole ⟨shell, [], .returned status⟩
  | command :: rest =>
    if skips command.connector status then deliverCommands shell streams seen status rest
    else
      (shell.deliverCommand streams seen command.words).andThen seen fun seen shell status =>
        deliverCommands shell streams seen status rest

/-- Runs a line. -/
def deliverLine (shell : Shell) (streams : Streams) (seen : Transcript) (line : String) :
    Delivery :=
  let shell := { shell with lineNumber := shell.lineNumber + 1 }
  match Command.ofLine line with
  | .error error => ((shell.report (.ofFault error.fault [])).deliver streams seen).settle seen
  | .ok commands => shell.deliverCommands streams seen shell.lastStatus commands

/-- Runs lines one after the other. -/
def deliverLines (shell : Shell) (streams : Streams) (seen : Transcript) :
    List String → Delivery
  | [] => .whole shell.finish
  | line :: rest =>
    (shell.deliverLine streams seen line).andThen seen fun seen shell _ =>
      deliverLines shell streams seen rest

/-- Runs the lines of a text. -/
def deliverText (shell : Shell) (streams : Streams) (seen : Transcript) (text : String) :
    Delivery :=
  shell.deliverLines streams seen (Text.linesOfText text)

/-- Runs the lines of a stream of which all is there. -/
def deliverStream (shell : Shell) (streams : Streams) (seen : Transcript) (text : String) :
    Delivery :=
  shell.deliverLines streams seen (Text.linesOfStream text)

/-- Runs the lines of standard input until its end. -/
def deliverInput (shell : Shell) (streams : Streams) (seen : Transcript) : List Read → Delivery
  | [] => .whole (shell.finish.after [.read])
  | .interrupt :: _ => .whole ⟨shell, [.read], .broken .interrupted⟩
  | .line text :: rest =>
    if text = "" then .whole (shell.finish.after [.read])
    else
      ((shell.deliverLine streams (seen ++ [.read]) text).andThen (seen ++ [.read])
        fun seen shell _ => deliverInput shell streams seen rest).after [.read]

end Shell

end CommandShell
