/-
CommandShell.CommandLine.Options — what the command line asks for.

Arguments take effect from left to right. The first operand is the script;
what is neither an option nor the script is left over, and anything left
over is a misuse. Joined options are looked at together before the first of
them takes effect.
-/
import CommandShell.CommandLine.Argument
import CommandShell.Text.Quoted
import CommandShell.Text.UpperCase

namespace CommandShell

/-- What an option was given as its value. -/
inductive Setting
  | text (text : String)
  /-- Nothing: two dashes in the place of a value stand for no value. -/
  | void
  deriving Repr, DecidableEq

/-- What a value says. -/
def Setting.ofValue (value : String) : Setting :=
  if value = "--" then .void else .text value

/-- What a run is asked for. -/
structure Options where
  command : Option Setting := none
  interactive : Bool := false
  logLevel : Setting
  script : Option String := none
  deriving Repr, DecidableEq

/-- What the command line comes to. -/
inductive Request
  | run (options : Options)
  | help
  | misuse (message : String)
  deriving Repr, DecidableEq

namespace Options

/-- The names that may be given for the log level. -/
def levelNames : List String :=
  ["DEBUG", "INFO", "WARNING", "ERROR", "CRITICAL"]

/-- The message for an option that lacks its value. -/
def missingMessage (flag : Flag) : String :=
  flag.misuse "expected one argument"

/-- The message for a log level that does not exist. -/
def unknownLevelMessage (level : String) : String :=
  Flag.logLevel.misuse
    ("invalid choice: " ++ Text.quoted level ++ " (choose from " ++
      ", ".intercalate (levelNames.map Text.quoted) ++ ")")

/-- Lets one option take effect; asking for help ends the reading. -/
def apply (options : Options) (flag : Flag) (value : String) : Except Request Options :=
  match flag with
  | .help => .error .help
  | .interactive => .ok { options with interactive := true }
  | .command => .ok { options with command := some (.ofValue value) }
  | .logLevel =>
    match Setting.ofValue value with
    | .void => .ok { options with logLevel := .void }
    | .text name =>
      let level := Text.upperCase name
      if levelNames.contains level then .ok { options with logLevel := .text level }
      else .error (.misuse (unknownLevelMessage level))

/-- Lets joined options take effect in order. -/
def applyGroup (options : Options) (group : OptionGroup) (value : String) :
    Except Request Options := do
  let options ← group.leading.foldlM (fun options flag => options.apply flag "") options
  options.apply group.last value

/-- The options read so far, whether the place of the script is taken, and
what is left over. -/
structure Reading where
  options : Options
  scriptTaken : Bool := false
  leftOver : List String := []

/-- What the reading comes to at its end. -/
def Reading.conclude (reading : Reading) : Request :=
  if reading.leftOver = [] then .run reading.options
  else .misuse ("unrecognized arguments: " ++ " ".intercalate reading.leftOver)

/-- An operand is the script if there is none yet, else it is left over. -/
def Reading.takeOperand (reading : Reading) (text : String) : Reading :=
  if reading.scriptTaken then { reading with leftOver := reading.leftOver ++ [text] }
  else { reading with
    options := { reading.options with script := some text }, scriptTaken := true }

/-- Reads the arguments that are left. A value that is not joined to its
option is the next argument, which has to be an operand. A terminator beside
the script goes with it; any other is left over. -/
def Reading.read (reading : Reading) : List Argument → Request
  | [] => reading.conclude
  | .unknown text :: rest =>
    Reading.read { reading with leftOver := reading.leftOver ++ [text] } rest
  | .terminator :: rest =>
    if reading.scriptTaken then
      Reading.read { reading with leftOver := reading.leftOver ++ ["--"] } rest
    else Reading.read reading rest
  | .operand text :: rest =>
    match reading.scriptTaken, rest with
    | false, .terminator :: rest => Reading.read (reading.takeOperand text) rest
    | _, rest => Reading.read (reading.takeOperand text) rest
  | .options (.error message) :: _ => .misuse message
  | .options (.ok group) :: rest =>
    if group.wantsValue then
      match rest with
      | .operand value :: rest =>
        match reading.options.applyGroup group value with
        | .error request => request
        | .ok options => Reading.read { reading with options } rest
      | _ => .misuse (missingMessage group.last)
    else
      match reading.options.applyGroup group (group.value.getD "") with
      | .error request => request
      | .ok options => Reading.read { reading with options } rest

/-- What a command line comes to, given the log level that holds without an
option for it. -/
def ofArguments (logLevel : String) (arguments : List String) : Request :=
  match Argument.ofTexts arguments with
  | .error message => .misuse message
  | .ok arguments => Reading.read { options := { logLevel := .text logLevel } } arguments

end Options

end CommandShell
