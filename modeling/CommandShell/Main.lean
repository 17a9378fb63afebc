/-
CommandShell.Main — the program.

All it decides is what the shell is given and where its texts go: it reads
standard input to its end, hands the run the variables and files that it can
see, and writes out the events of the run in order. The file tree of a run
holds the working directory, the home directory, and the files named on the
command line; programs are not started.
-/
import CommandShell.CommandLine.Run

namespace CommandShell.Main

/-- The variables that are handed to the shell, where they are set. -/
def variableNames : List String :=
  ["HOME", "LANG", "LOGNAME", "MINISH_LOG_LEVEL", "OLDPWD", "PATH", "PWD", "SHELL", "TERM", "USER"]

/-- The variables that are set, with their values. -/
def readVariables : IO (Bindings String) :=
  variableNames.filterMapM fun name => do
    return (← IO.getEnv name).map fun value => (name, value)

/-- The lines of standard input up to its end. -/
partial def readInput (input : IO.FS.Stream) : IO (List Read) := do
  let line ← input.getLine
  if line.isEmpty then return []
  return .line line :: (← readInput input)

/-- The tree with the directories and files that the run can see. -/
def readWorld (environment : Bindings String) (arguments : List String) : IO World := do
  let directory := toString (← IO.currentDir)
  let home := (environment.find? "HOME").getD "/"
  let start := (({} : World).put home .emptyDirectory).put directory .emptyDirectory
  let world ← arguments.foldlM (fun (world : World) (argument : String) => do
    match ← (IO.FS.readBinFile argument).toBaseIO with
    | .ok bytes =>
      return world.put (Path.normalise (Path.join directory argument))
        (.file { content := bytes.toList })
    | .error _ => return world) start
  return { world with workingDirectory := .inTree (Path.components directory) }

/-- Writes out what can be seen of a run. -/
def writeTranscript (transcript : Transcript) (logging : Bool) : IO Unit :=
  transcript.forM fun event => do
    IO.print event.outputText
    IO.eprint (event.errorText logging)

/-- Runs the shell on the given command line. -/
def run (arguments : List String) : IO UInt32 := do
  let environment ← readVariables
  let world ← readWorld environment arguments
  let input ← IO.getStdin
  let invocation : Invocation := {
    arguments
    environment
    processId := 1
    world
    terminal := ← input.isTty
    input := ← readInput input }
  let completion := CommandLine.run invocation
  writeTranscript completion.transcript completion.logging
  match completion.status with
  | .ok status => return (status % 256).toNat.toUInt32
  | .error breakdown =>
    IO.eprintln breakdown.message
    return 1

end CommandShell.Main

/-- Runs the shell. -/
def main (arguments : List String) : IO UInt32 :=
  CommandShell.Main.run arguments
