/-
CommandShell.Transcript — what a run of the shell does that can be seen,
in order.

A transcript is a list of events of all kinds; the texts of the two output
streams and the list of started programs are read off it. Log messages go
to the error stream when logging is switched on.

A text in a transcript is one that the run writes. What a transcript goes on
with after it supposes that the stream took it, as everything does that speaks
of transcripts only. `CommandShell.Shell.Delivery` has the same runs with
streams that may refuse a text.
-/

namespace CommandShell

/-- A request to start a program. -/
structure Attempt where
  executable : String
  arguments : List String
  environment : List String
  deriving Repr, DecidableEq

/-- The parts of the shell that log what they do. -/
inductive LogSource
  | dispatcher
  | processes
  | searchPath
  deriving Repr, DecidableEq

/-- The name of a source in the log. -/
def LogSource.name : LogSource → String
  | .dispatcher => "minish.shell.core"
  | .processes => "minish.shell.process"
  | .searchPath => "minish.path_resolver"

/-- One thing that can be seen of a run. -/
inductive Event
  /-- Text on the output stream. -/
  | output (text : String)
  /-- Text on the output stream that belongs to the conversation with a user
  at a prompt and to no command. -/
  | prompt (text : String)
  /-- Text on the error stream. -/
  | errors (text : String)
  | log (source : LogSource) (message : String)
  | spawn (attempt : Attempt)
  /-- A command begins, with its words as they are after all expansion. -/
  | dispatch (words : List String)
  /-- One item is read from standard input. -/
  | read
  deriving Repr, DecidableEq

/-- Events in order. -/
abbrev Transcript := List Event

namespace Event

/-- What an event adds to the output stream. -/
def outputText : Event → String
  | .output text | .prompt text => text
  | _ => ""

/-- What an event adds to the error stream, given whether log messages are
shown. -/
def errorText (logging : Bool) : Event → String
  | .errors text => text
  | .log source message => if logging then source.name ++ ": DEBUG: " ++ message ++ "\n" else ""
  | _ => ""

/-- The request to start a program that an event is. -/
def attempt? : Event → Option Attempt
  | .spawn attempt => some attempt
  | _ => none

/-- The words of the command that an event begins. -/
def dispatched? : Event → Option (List String)
  | .dispatch words => some words
  | _ => none

end Event

namespace Transcript

/-- The text of the output stream. -/
def output (transcript : Transcript) : String :=
  String.join (transcript.map Event.outputText)

/-- The text of the error stream. -/
def errors (transcript : Transcript) (logging : Bool) : String :=
  String.join (transcript.map (Event.errorText logging))

/-- The requests to start programs. -/
def attempts (transcript : Transcript) : List Attempt :=
  transcript.filterMap Event.attempt?

/-- The words of the commands that began. -/
def dispatched (transcript : Transcript) : List (List String) :=
  transcript.filterMap Event.dispatched?

end Transcript

end CommandShell
