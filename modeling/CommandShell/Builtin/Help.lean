/-
CommandShell.Builtin.Help — what is said about builtins.
-/
import CommandShell.Shell.State

namespace CommandShell.Builtin

/-- The width of the column of usage texts. -/
def usageWidth : Nat := 28

/-- A text filled with spaces on the right to a width. -/
def padRight (width : Nat) (text : String) : String :=
  text ++ String.ofList (List.replicate (width - text.length) ' ')

/-- One line of the overview. -/
def overviewLine (entry : Registry.Entry Action) : String :=
  Text.trimRight ("  " ++ padRight usageWidth entry.usage ++ " " ++ entry.description)

/-- The overview of all builtins. -/
def overview (builtins : Registry Action) : String :=
  String.join
    ((["Builtin commands:"] ++ builtins.map overviewLine ++
      ["Use 'help BUILTIN' for more information on a builtin."]).map (· ++ "\n"))

/-- What is said about one builtin. -/
def topicText (entry : Registry.Entry Action) : String :=
  entry.name ++ ": " ++ entry.usage ++ "\n" ++
    (if entry.helpText = "" then entry.description else entry.helpText) ++ "\n"

/-- The texts on all topics, or the first topic that no builtin has. -/
def topicTexts (builtins : Registry Action) : List String → Except Fault (List String)
  | [] => .ok []
  | topic :: rest =>
    match builtins.lookup topic with
    | none => .error (.unknownTopic topic)
    | some entry => (topicTexts builtins rest).map (topicText entry :: ·)

/-- Shows the overview, or the texts on the topics that the operands name. -/
def help (shell : Shell) (operands : List String) : Reply :=
  match operands with
  | [] => .done { output := overview shell.builtins }
  | _ :: _ =>
    match topicTexts shell.builtins operands with
    | .error fault => .failed fault
    | .ok texts => .done { output := "\n".intercalate texts }

end CommandShell.Builtin
