/-
CommandShell.Builtin.Standard — the builtins every shell has.
-/
import CommandShell.Builtin.Alias
import CommandShell.Builtin.ChangeDirectory
import CommandShell.Builtin.Exit
import CommandShell.Builtin.Help
import CommandShell.Builtin.Variables

namespace CommandShell

namespace Action

/-- Does what a builtin does, given the words of the command after its name. -/
def perform (action : Action) (shell : Shell) (name : String) (operands : List String) :
    Shell × Reply :=
  match action with
  | .exit => (shell, Builtin.exit shell operands)
  | .env => (shell, Builtin.env shell operands)
  | .setenv => Builtin.setenv shell operands
  | .unsetenv => Builtin.unsetenv shell operands
  | .cd => Builtin.cd shell operands
  | .aliases => Builtin.aliases shell operands
  | .help => (shell, Builtin.help shell operands)
  | .foreign act =>
    let (edits, reply) := act shell.view (name :: operands)
    (shell.editAll edits, reply)

end Action

namespace Builtin

/-- The standard builtins in the order in which help lists them. -/
def standard : Registry Action :=
  [{ name := "exit"
     handler := .exit
     description := "Exit the shell"
     usage := "exit [STATUS]"
     helpText := "Exits the shell with a status of STATUS.\n" ++
       "If STATUS is omitted, the status of the last command is used." },
   { name := "env"
     handler := .env
     description := "Print the environment"
     usage := "env"
     helpText := "Prints the current environment, one NAME=VALUE pair per line." },
   { name := "setenv"
     handler := .setenv
     description := "Set an environment variable"
     usage := "setenv VARIABLE VALUE"
     helpText := "Initializes a new environment variable, or modifies an existing one.\n" ++
       "Fails if given the wrong number of arguments." },
   { name := "unsetenv"
     handler := .unsetenv
     description := "Remove an environment variable"
     usage := "unsetenv VARIABLE"
     helpText := "Removes an environment variable. Removing a variable that is not set\n" ++
       "succeeds silently. Fails if given the wrong number of arguments." },
   { name := "cd"
     handler := .cd
     description := "Change the working directory"
     usage := "cd [DIRECTORY]"
     helpText := "Changes the current directory of the shell to DIRECTORY.\n" ++
       "With no argument (or --) the value of HOME is used; '-' changes to\n" ++
       "the previous directory and prints it. PWD and OLDPWD are updated." },
   { name := "alias"
     handler := .aliases
     description := "Define or display aliases"
     usage := "alias [NAME[='VALUE'] ...]"
     helpText := "Without arguments, prints every alias as NAME='VALUE'.\n" ++
       "For each NAME, prints that alias; for each NAME='VALUE', defines an\n" ++
       "alias replacing the command word NAME with VALUE. Fails if a NAME\n" ++
       "has no alias." },
   { name := "help"
     handler := .help
     description := "Show help for builtins"
     usage := "help [BUILTIN ...]"
     helpText := "Displays information about builtin commands. With BUILTIN, prints\n" ++
       "detailed help for each named builtin." }]

end Builtin

end CommandShell
