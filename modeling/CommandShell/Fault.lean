/-
CommandShell.Fault — the failures the shell reports, their wording and their
exit statuses.
-/

namespace CommandShell

/-- What went wrong. -/
inductive Fault.Cause
  /-- A failure in words of its own. -/
  | general (reason : String)
  /-- A builtin was given the wrong operands. -/
  | usage (reason : String)
  /-- A text is not the number of an exit status. -/
  | illegalNumber (value : String)
  /-- A variable cannot be set or unset. -/
  | environmentUpdate
  /-- Help was asked for something that is no builtin. -/
  | unknownTopic (topic : String)
  /-- The working directory cannot become `target`. -/
  | changeDirectory (target : String)
  /-- A line is no list of commands. -/
  | unexpected (token : String) (inQuotes : Bool)
  /-- No program has the name of the command. -/
  | commandNotFound
  /-- The program was found and cannot be run. -/
  | permissionDenied (reason : String)
  /-- No process could be made for the program. -/
  | spawnFailed (reason : String)
  /-- A script cannot be opened. -/
  | scriptUnreadable (path : String)
  deriving Repr, DecidableEq

/-- A failure and the command that its report names, if it names one itself. -/
structure Fault where
  cause : Fault.Cause
  command : Option String := none
  deriving Repr, DecidableEq

namespace Fault

/-- The wording of a cause. -/
def Cause.reason : Cause → String
  | .general reason | .usage reason => reason
  | .illegalNumber value => "Illegal number: " ++ value
  | .environmentUpdate => "Unable to add/remove from environment"
  | .unknownTopic topic => "no help topics match '" ++ topic ++ "'"
  | .changeDirectory target => "can't cd to " ++ target
  | .unexpected token inQuotes =>
    "Syntax error: " ++ (if inQuotes then "\"" ++ token ++ "\"" else token) ++ " unexpected"
  | .commandNotFound => "not found"
  | .permissionDenied reason | .spawnFailed reason => reason
  | .scriptUnreadable path => "Can't open " ++ path

/-- The exit status that a cause leads to. -/
def Cause.status : Cause → Int
  | .general _ | .spawnFailed _ => 1
  | .usage _ | .illegalNumber _ | .environmentUpdate | .unknownTopic _ | .changeDirectory _
  | .unexpected _ _ => 2
  | .permissionDenied _ => 126
  | .commandNotFound | .scriptUnreadable _ => 127

/-- Causes that have to do with no single command. -/
def Cause.isContextless : Cause → Bool
  | .unexpected _ _ | .scriptUnreadable _ => true
  | _ => false

/-- The wording of a fault. -/
def reason (fault : Fault) : String :=
  fault.cause.reason

/-- The exit status of a fault. -/
def status (fault : Fault) : Int :=
  fault.cause.status

/-- The operand of the command that leaves the shell is no number. -/
def illegalNumber (value : String) : Fault :=
  ⟨.illegalNumber value, some "exit"⟩

/-- A refused change of the variables. -/
def environmentUpdate : Fault :=
  ⟨.environmentUpdate, none⟩

/-- A topic that no builtin has. -/
def unknownTopic (topic : String) : Fault :=
  ⟨.unknownTopic topic, some "help"⟩

/-- A directory that cannot be gone to. -/
def changeDirectory (target : String) : Fault :=
  ⟨.changeDirectory target, some "cd"⟩

end Fault

end CommandShell
