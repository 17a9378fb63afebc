/-
CommandShell.Syntax.Command — simple commands and the lists they form.

`Command.ofTokens` groups tokens into commands: operators stand between
commands, and a semicolon may also stand at the end. `Command.render` writes
a list of commands out again with single spaces.
-/
import CommandShell.Syntax.Token

namespace CommandShell

/-- The words of one command and the operator before it; the first command
of a line has none. -/
structure Command where
  connector : Option Operator
  words : List String
  deriving Repr, DecidableEq

/-- Why a line is no list of commands. -/
inductive SyntaxError
  /-- An operator with no command before it. -/
  | unexpected (operator : Operator)
  /-- A semicolon right after a semicolon. -/
  | doubleSemicolon
  /-- Nothing after an operator that needs a command on its right. -/
  | endOfFile
  deriving Repr, DecidableEq

namespace Command

/-- The error for an operator that comes where a command has to begin. -/
def misplaced (connector : Option Operator) (operator : Operator) : SyntaxError :=
  if operator = .semicolon ∧ connector = some .semicolon then .doubleSemicolon
  else .unexpected operator

/-- Groups tokens into commands, given the connector and the words of the
command under way. -/
def group (connector : Option Operator) (words : List String) :
    List Token → Except SyntaxError (List Command)
  | [] =>
    if words ≠ [] then .ok [⟨connector, words⟩]
    else if connector = some .and ∨ connector = some .or then .error .endOfFile
    else .ok []
  | .word word :: rest => group connector (words ++ [word]) rest
  | .op operator :: rest =>
    if words = [] then .error (misplaced connector operator)
    else (group (some operator) [] rest).map (⟨connector, words⟩ :: ·)

/-- The commands that tokens write. -/
def ofTokens (tokens : List Token) : Except SyntaxError (List Command) :=
  group none [] tokens

/-- The commands of a line. -/
def ofLine (line : String) : Except SyntaxError (List Command) :=
  ofTokens (Token.ofLine line)

/-- The tokens of a command: its connector, then its words. -/
def tokens (command : Command) : List Token :=
  (command.connector.map Token.op).toList ++ command.words.map Token.word

/-- Writes commands out, with single spaces between all tokens. -/
def render (commands : List Command) : String :=
  " ".intercalate ((commands.flatMap tokens).map Token.text)

end Command

end CommandShell
