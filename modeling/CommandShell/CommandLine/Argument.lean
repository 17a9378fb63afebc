/-
CommandShell.CommandLine.Argument — what each argument of the command line
is, before any of them is acted on.

Short options may be joined to their value or to each other, long ones may
be cut short as long as one option fits, and an equals sign may set the
value off. An argument that only looks like an option but is a negative
number, or holds a space, is an operand. After two dashes all are operands.
-/
import CommandShell.Text.DecimalDigit
import CommandShell.Text.Field
import CommandShell.Text.Quoted

namespace CommandShell

/-- The options. -/
inductive Flag
  | help
  | command
  | interactive
  | logLevel
  deriving Repr, DecidableEq

namespace Flag

/-- The option with a letter. -/
def ofLetter? (c : Char) : Option Flag :=
  if c = 'h' then some .help
  else if c = 'c' then some .command
  else if c = 'i' then some .interactive
  else none

/-- The long spellings in the order in which they are listed. -/
def longSpellings : List (String × Flag) :=
  [("--help", .help), ("--log-level", .logLevel)]

/-- The name of an option in messages. -/
def name : Flag → String
  | .help => "-h/--help"
  | .command => "-c"
  | .interactive => "-i"
  | .logLevel => "--log-level"

/-- Whether an option has a value. -/
def takesValue : Flag → Bool
  | .command | .logLevel => true
  | .help | .interactive => false

/-- A misuse of an option. -/
def misuse (flag : Flag) (message : String) : String :=
  "argument " ++ flag.name ++ ": " ++ message

/-- The message for text joined to an option that has no value. -/
def ignoredMessage (flag : Flag) (attached : List Char) : String :=
  flag.misuse ("ignored explicit argument " ++ Text.quoted (String.ofList attached))

end Flag

/-- Options written in one argument: those without a value, in order, then
the last one with the value joined to it, if any. -/
structure OptionGroup where
  leading : List Flag := []
  last : Flag
  value : Option String := none
  deriving Repr, DecidableEq

namespace OptionGroup

/-- The options that a letter and the text joined to it write. The text is
the value if the option has one; else it starts with the next letter. -/
def ofLetters (flag : Flag) : List Char → Except String OptionGroup
  | [] =>
    if flag.takesValue then .ok { last := flag, value := some "" }
    else .error (flag.ignoredMessage [])
  | letter :: rest =>
    if flag.takesValue then .ok { last := flag, value := some (String.ofList (letter :: rest)) }
    else
      match Flag.ofLetter? letter with
      | none => .error (flag.ignoredMessage (letter :: rest))
      | some next =>
        if rest = [] then .ok { leading := [flag], last := next }
        else (ofLetters next rest).map fun group => { group with leading := flag :: group.leading }

/-- The option that a long spelling writes; only one that has a value may be
given it with an equals sign. -/
def ofLong (flag : Flag) : Option (List Char) → Except String OptionGroup
  | none => .ok { last := flag }
  | some value =>
    if flag.takesValue then .ok { last := flag, value := some (String.ofList value) }
    else .error (flag.ignoredMessage value)

/-- Whether the value of the last option is still to come. -/
def wantsValue (group : OptionGroup) : Bool :=
  group.last.takesValue && group.value.isNone

end OptionGroup

/-- An argument of the command line. -/
inductive Argument
  | operand (text : String)
  /-- Two dashes, after which all arguments are operands. -/
  | terminator
  /-- Options, or what is wrong with them. -/
  | options (group : Except String OptionGroup)
  /-- What looks like an option and is none. -/
  | unknown (text : String)

namespace Argument

/-- Several decimal digits of any script, and no other character. -/
def isDigits (chars : List Char) : Bool :=
  !chars.isEmpty && chars.all Text.isDecimalDigit

/-- Whether a text is a negative number: a dash, digits, and perhaps a point
with digits after it; before the point there may be none. A newline may
stand at the end. -/
def isNegativeNumber (chars : List Char) : Bool :=
  match chars with
  | '-' :: rest =>
    let body := if rest.getLast? = some '\n' then rest.dropLast else rest
    isDigits body ||
      match Text.cutAt '.' body with
      | some (whole, fraction) => whole.all Text.isDecimalDigit && isDigits fraction
      | none => false
  | _ => false

/-- What a text with a dash in front is that spells no option: an operand if
it is a negative number or holds a space. -/
def dashed (chars : List Char) : Argument :=
  if isNegativeNumber chars || chars.contains ' ' then .operand (String.ofList chars)
  else .unknown (String.ofList chars)

/-- The message for a cut long option that several options fit. -/
def ambiguousMessage (text : String) (spellings : List (String × Flag)) : String :=
  "ambiguous option: " ++ text ++ " could match " ++ ", ".intercalate (spellings.map (·.1))

/-- What an argument with two dashes in front is. -/
def ofLong (chars : List Char) : Except String Argument :=
  let (spelling, value) :=
    match Text.cutAt '=' chars with
    | some (spelling, value) => (spelling, some value)
    | none => (chars, none)
  match Flag.longSpellings.filter fun (long, _) => spelling.isPrefixOf long.toList with
  | [] => .ok (dashed chars)
  | [(_, flag)] => .ok (.options (OptionGroup.ofLong flag value))
  | spellings => .error (ambiguousMessage (String.ofList chars) spellings)

/-- What an argument before any terminator is. -/
def ofText (text : String) : Except String Argument :=
  match text.toList with
  | ['-', '-'] => .ok .terminator
  | '-' :: '-' :: rest => ofLong ('-' :: '-' :: rest)
  | '-' :: letter :: rest =>
    match Flag.ofLetter? letter with
    | none => .ok (dashed ('-' :: letter :: rest))
    | some flag =>
      match rest with
      | [] => .ok (.options (.ok { last := flag }))
      | '=' :: value => .ok (.options (OptionGroup.ofLetters flag value))
      | attached => .ok (.options (OptionGroup.ofLetters flag attached))
  | _ => .ok (.operand text)

/-- What the arguments of a command line are. -/
def ofTexts : List String → Except String (List Argument)
  | [] => .ok []
  | text :: rest =>
    match ofText text with
    | .error message => .error message
    | .ok .terminator => .ok (.terminator :: rest.map .operand)
    | .ok argument => (ofTexts rest).map (argument :: ·)

end Argument

end CommandShell
