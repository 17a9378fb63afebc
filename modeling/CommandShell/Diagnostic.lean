/-
CommandShell.Diagnostic — the one line in which a failure is reported.
-/
import CommandShell.Fault
import CommandShell.Syntax.Command

namespace CommandShell

/-- The report of a failure: what is said, of which command, and the exit
status that goes with it. -/
structure Diagnostic where
  reason : String
  status : Int
  command : Option String := none
  deriving Repr, DecidableEq

namespace Diagnostic

/-- The line that reports a failure, without a newline. -/
def render (diagnostic : Diagnostic) (program : String) (lineNumber : Int) : String :=
  program ++ ": " ++ toString lineNumber ++ ": " ++
    match diagnostic.command with
    | some command => command ++ ": " ++ diagnostic.reason
    | none => diagnostic.reason

/-- The report of a fault met while a command ran. A fault that names no
command itself is put down to the first word of the command, unless it says
nothing or has to do with no single command. -/
def ofFault (fault : Fault) (words : List String) : Diagnostic where
  reason := fault.reason
  status := fault.status
  command :=
    fault.command <|>
      if fault.reason = "" ∨ fault.cause.isContextless then none else words.head?

/-- The report of a failure that no fault describes. -/
def unforeseen (message : String) (words : List String) : Diagnostic where
  reason := words.headD "minish" ++ " failed: " ++ message
  status := 1

end Diagnostic

namespace SyntaxError

/-- A syntax error as a fault: operators are quoted, the end of input is not. -/
def fault : SyntaxError → Fault
  | .unexpected operator => ⟨.unexpected operator.text true, none⟩
  | .doubleSemicolon => ⟨.unexpected ";;" true, none⟩
  | .endOfFile => ⟨.unexpected "end of file" false, none⟩

end SyntaxError

end CommandShell
