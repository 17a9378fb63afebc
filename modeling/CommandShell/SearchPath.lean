/-
CommandShell.SearchPath — finding the program that a command names.

The variable PATH lists directories with colons between them. The list is
taken apart once and kept until the value of the variable changes.
-/
import CommandShell.Environment
import CommandShell.FileSystem.Walk
import CommandShell.Text.Quoted
import CommandShell.Transcript

namespace CommandShell

/-- The directories of a PATH value. An empty component stands for the
current directory, and so does a value that is unset or empty. -/
def searchDirectories : Option String → List String
  | none => ["."]
  | some value =>
    if value = "" then ["."]
    else
      (Text.fields ':' value.toList).map fun field =>
        if field = [] then "." else String.ofList field

/-- Directories and the value of PATH that they were taken from. -/
structure SearchPath.Built where
  source : Option String
  directories : List String
  deriving Repr, DecidableEq

/-- The directory list, once it has been needed. -/
structure SearchPath where
  built : Option SearchPath.Built := none
  deriving Repr, DecidableEq

/-- Where a command was found, the search path as it is then, and what was
logged on the way. -/
structure Resolution where
  location : Option String
  searchPath : SearchPath
  transcript : Transcript
  deriving Repr, DecidableEq

namespace SearchPath

/-- Takes the value of PATH apart. -/
def build (source : Option String) : Built :=
  ⟨source, searchDirectories source⟩

/-- The directories for the present value of PATH. They are taken apart anew
only when there are none yet or the value has changed. -/
def refresh (path : SearchPath) (env : Environment) : Built × Transcript :=
  let source := env.get? "PATH"
  let rebuilt : Built × Transcript :=
    let built := build source
    (built, [.log .searchPath ("rebuilt search path: " ++ Text.quotedList built.directories)])
  match path.built with
  | none => rebuilt
  | some built => if built.source = source then (built, []) else rebuilt

/-- The first of some directories in which a command is a regular file that
may be executed, as the path of that file. -/
def search (world : World) (command : String) (directories : List String) : Option String :=
  (directories.map fun directory => Path.join directory command).find? world.isExecutableFile

/-- Where the program is that a command names. A command with a slash is a
path itself and has only to exist; any other is searched for. -/
def resolve (path : SearchPath) (env : Environment) (world : World) (command : String) :
    Resolution :=
  if command = "" then ⟨none, path, []⟩
  else if command.toList.contains '/' then
    ⟨if world.entryExists command then some command else none, path, []⟩
  else
    let (built, logged) := path.refresh env
    match search world command built.directories with
    | some location =>
      ⟨some location, ⟨some built⟩,
        logged ++ [.log .searchPath ("resolved " ++ command ++ " -> " ++ location)]⟩
    | none =>
      ⟨none, ⟨some built⟩,
        logged ++ [.log .searchPath
          (command ++ " not found in " ++ Text.quotedList built.directories)]⟩

end SearchPath

end CommandShell
