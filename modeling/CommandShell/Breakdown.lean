/-
CommandShell.Breakdown — what stops a run before it has an exit status.

These are the cases that the shell has no report for: the run breaks off
where it stands, and all that is left of it is the message below. A text that
a stream refuses is one more, which depends on the streams
(`CommandShell.Shell.Delivery`).
-/

namespace CommandShell

/-- Why a run breaks off. -/
inductive Breakdown
  /-- The path of a script holds the character NUL. -/
  | embeddedNul
  /-- The user interrupts the reading of a line that no prompt asked for. -/
  | interrupted
  /-- The option for the log level was given without a level. -/
  | voidLevel
  /-- The option for a command text was given without a text. -/
  | voidCommand
  /-- The name of the log level stands for the layout of log lines. -/
  | layoutAsLevel
  /-- The name of the log level stands for the table of layout styles. -/
  | stylesAsLevel
  deriving Repr, DecidableEq

namespace Breakdown

/-- The layout that log lines have by default. -/
def defaultLayout : String :=
  "'%(levelname)s:%(name)s:%(message)s'"

/-- The layout styles with the default layout of each. -/
def styleTable : String :=
  "\x7b'%': (<class 'logging.PercentStyle'>, " ++ defaultLayout ++ "), " ++
  "'\x7b': (<class 'logging.StrFormatStyle'>, " ++
    "'\x7blevelname\x7d:\x7bname\x7d:\x7bmessage\x7d'), " ++
  "'$': (<class 'logging.StringTemplateStyle'>, " ++
    "'$\x7blevelname\x7d:$\x7bname\x7d:$\x7bmessage\x7d')\x7d"

/-- The wording of a breakdown. -/
def message : Breakdown → String
  | .embeddedNul => "embedded null byte"
  | .interrupted => ""
  | .voidLevel => "'list' object has no attribute 'upper'"
  | .voidCommand => "'list' object has no attribute 'splitlines'"
  | .layoutAsLevel => "Unknown level: " ++ defaultLayout
  | .stylesAsLevel => "Level not an integer or a valid string: " ++ styleTable

end Breakdown

end CommandShell
