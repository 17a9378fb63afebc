/-
CommandShell.CommandLine.Run — a whole run of the shell, from its command
line to its exit status.

The commands come from the first of these that the command line gives: a
command text, a script, a user at a prompt, standard input.
-/
import CommandShell.CommandLine.Options
import CommandShell.Shell.Loop

namespace CommandShell

/-- What a run is started with. -/
structure Invocation where
  arguments : List String
  /-- The name the shell was called by, where it is known. -/
  calledAs : Option String := none
  environment : Bindings String := []
  processId : Int
  world : World := {}
  /-- Whether standard input is a terminal. -/
  terminal : Bool := false
  input : List Read := []

/-- What a run comes to. -/
structure Completion where
  status : Except Breakdown Int
  transcript : Transcript := []
  /-- Whether log messages are shown. -/
  logging : Bool := false
  world : World

namespace CommandLine

/-- The usage of the command line. -/
def usage : String :=
  "usage: minish [-h] [-c COMMAND] [-i]\n" ++
  "              [--log-level \x7bDEBUG,INFO,WARNING,ERROR,CRITICAL\x7d]\n" ++
  "              [script]\n"

/-- The text for a user who asks for help. -/
def helpText : String :=
  usage ++
  "\n" ++
  "A small POSIX-style command interpreter.\n" ++
  "\n" ++
  "positional arguments:\n" ++
  "  script                Read commands from this file.\n" ++
  "\n" ++
  "options:\n" ++
  "  -h, --help            show this help message and exit\n" ++
  "  -c COMMAND            Run COMMAND and exit.\n" ++
  "  -i                    Prompt for commands even when stdin is not a terminal.\n" ++
  "  --log-level \x7bDEBUG,INFO,WARNING,ERROR,CRITICAL\x7d\n" ++
  "                        Logging verbosity (default: $MINISH_LOG_LEVEL or\n" ++
  "                        WARNING).\n"

/-- The text for a user who made a mistake. -/
def misuseText (message : String) : String :=
  usage ++ "minish: error: " ++ message ++ "\n"

/-- The log level without an option for it: the one that a variable names,
whatever that is. -/
def defaultLevel (environment : Bindings String) : String :=
  Text.upperCase ((environment.find? "MINISH_LOG_LEVEL").getD "WARNING")

/-- Whether a log level lets messages for debugging through. A name that is
no level counts as one that does not, except for the two names of other
settings of the log. -/
def showsDebugging : Setting → Except Breakdown Bool
  | .void => .error .voidLevel
  | .text level =>
    if level = "BASIC_FORMAT" then .error .layoutAsLevel
    else if level = "_STYLES" then .error .stylesAsLevel
    else .ok (level = "DEBUG" ∨ level = "NOTSET")

/-- The shell at the start of a run. -/
def initialShell (invocation : Invocation) : Shell where
  programName := invocation.calledAs.getD "minish"
  processId := invocation.processId
  environment := .ofPairs invocation.environment
  world := invocation.world
  builtins := Builtin.standard

/-- Runs the commands from where the options say that they come. -/
def runShell (invocation : Invocation) (options : Options) : Outcome :=
  let shell := initialShell invocation
  match options.command, options.script.filter (· ≠ "") with
  | some (.text text), _ => shell.runText text
  | some .void, _ => ⟨shell, [], .broken .voidCommand⟩
  | none, some path => shell.runScript path
  | none, none =>
    if options.interactive || invocation.terminal then shell.runPrompted invocation.input
    else shell.runInput invocation.input

/-- A whole run. The log is set up before the shell starts. -/
def run (invocation : Invocation) : Completion :=
  match Options.ofArguments (defaultLevel invocation.environment) invocation.arguments with
  | .help =>
    { status := .ok 0, transcript := [.output helpText], world := invocation.world }
  | .misuse message =>
    { status := .ok 2, transcript := [.errors (misuseText message)], world := invocation.world }
  | .run options =>
    match showsDebugging options.logLevel with
    | .error breakdown => { status := .error breakdown, world := invocation.world }
    | .ok logging =>
      let outcome := runShell invocation options
      { status := outcome.status
        transcript := outcome.transcript
        logging
        world := outcome.shell.world }

end CommandLine

end CommandShell
