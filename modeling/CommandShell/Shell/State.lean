/-
CommandShell.Shell.State — the state of a shell and what a run leaves behind.

A builtin that is not one of the standard ones is a function from elsewhere
(`Action.foreign`). It is shown the shell (`View`) and acts on it by the
requests that the parts of a shell take (`Edit`).
-/
import CommandShell.Alias.Table
import CommandShell.Breakdown
import CommandShell.Diagnostic
import CommandShell.Environment
import CommandShell.Expansion
import CommandShell.FileSystem.Walk
import CommandShell.Registry
import CommandShell.SearchPath
import CommandShell.Transcript

namespace CommandShell

/-- What a builtin leaves when it ran to its end. -/
structure CommandResult where
  output : String := ""
  errors : String := ""
  status : Int := 0
  deriving Repr, DecidableEq

/-- The answer of a builtin. -/
inductive Reply
  | done (result : CommandResult)
  | failed (fault : Fault)
  /-- A failure that no fault describes. -/
  | crashed (message : String)
  /-- The shell is to be left with a status. -/
  | leave (status : Int)
  deriving Repr, DecidableEq

/-- What a builtin from elsewhere is shown of the shell: all of its state but
the builtins, which stay as they are, and the number of the line, which is for
reports only. -/
structure View where
  programName : String
  processId : Int
  environment : Environment
  world : World
  aliases : AliasTable
  searchPath : SearchPath
  lastStatus : Int

/-- A request by which a builtin from elsewhere changes the shell. The file
tree is not the shell's; it changes from outside. -/
inductive Edit
  | setVariable (name value : String)
  | unsetVariable (name : String)
  | defineAlias (name value : String)
  | removeAlias (name : String)
  | clearAliases
  | changeDirectory (path : String)
  deriving Repr, DecidableEq

/-- What a builtin does. -/
inductive Action
  | exit
  | env
  | setenv
  | unsetenv
  | cd
  | aliases
  | help
  /-- A builtin from elsewhere. It is given the shell and its words, and gives
  back its requests in order and its answer. -/
  | foreign (act : View → List String → List Edit × Reply)

/-- A builtin from elsewhere that answers to its words and neither asks about
the shell nor changes it. -/
def Action.custom (answer : List String → Reply) : Action :=
  .foreign fun _ words => ([], answer words)

/-- The state of a shell. -/
structure Shell where
  programName : String
  processId : Int
  environment : Environment
  world : World
  builtins : Registry Action
  aliases : AliasTable := {}
  searchPath : SearchPath := {}
  lastStatus : Int := 0
  lineNumber : Nat := 0

namespace Shell

/-- What the shell shows of itself. -/
def view (shell : Shell) : View where
  programName := shell.programName
  processId := shell.processId
  environment := shell.environment
  world := shell.world
  aliases := shell.aliases
  searchPath := shell.searchPath
  lastStatus := shell.lastStatus

/-- Does what a builtin from elsewhere asks for; a request that is refused
changes nothing. -/
def edit (shell : Shell) : Edit → Shell
  | .setVariable name value =>
    match shell.environment.set? name value with
    | some environment => { shell with environment }
    | none => shell
  | .unsetVariable name =>
    match shell.environment.unset? name with
    | some (environment, _) => { shell with environment }
    | none => shell
  | .defineAlias name value => { shell with aliases := shell.aliases.define name value }
  | .removeAlias name => { shell with aliases := shell.aliases.remove name }
  | .clearAliases => { shell with aliases := {} }
  | .changeDirectory path =>
    match shell.world.changeDirectory path with
    | .ok world => { shell with world }
    | .error _ => shell

/-- Does one request after the other. -/
def editAll (shell : Shell) (edits : List Edit) : Shell :=
  edits.foldl edit shell

end Shell

/-- How a command, a line or a loop ended. -/
inductive Ending
  | returned (status : Int)
  /-- The shell is being left. -/
  | left (status : Int)
  /-- The run breaks off. -/
  | broken (breakdown : Breakdown)
  deriving Repr, DecidableEq

/-- What a run leaves: the state after it, what could be seen of it, and how
it ended. -/
structure Outcome where
  shell : Shell
  transcript : Transcript := []
  ending : Ending

namespace Outcome

/-- Goes on from an outcome that returned. -/
def andThen (outcome : Outcome) (next : Shell → Int → Outcome) : Outcome :=
  match outcome.ending with
  | .left _ | .broken _ => outcome
  | .returned status =>
    let after := next outcome.shell status
    { after with transcript := outcome.transcript ++ after.transcript }

/-- The outcome with events before it. -/
def after (events : Transcript) (outcome : Outcome) : Outcome :=
  { outcome with transcript := events ++ outcome.transcript }

/-- The status with which a loop returns: the one it was left with, if it
was. A run that broke off has none. -/
def status (outcome : Outcome) : Except Breakdown Int :=
  match outcome.ending with
  | .returned status | .left status => .ok status
  | .broken breakdown => .error breakdown

theorem andThen_returned {shell : Shell} {transcript : Transcript} {status : Int}
    (next : Shell → Int → Outcome) :
    andThen ⟨shell, transcript, .returned status⟩ next = (next shell status).after transcript := rfl

theorem andThen_left {shell : Shell} {transcript : Transcript} {status : Int}
    (next : Shell → Int → Outcome) :
    andThen ⟨shell, transcript, .left status⟩ next = ⟨shell, transcript, .left status⟩ := rfl

theorem andThen_broken {shell : Shell} {transcript : Transcript} {breakdown : Breakdown}
    (next : Shell → Int → Outcome) :
    andThen ⟨shell, transcript, .broken breakdown⟩ next =
      ⟨shell, transcript, .broken breakdown⟩ := rfl

/-- Going on twice is going on once with both steps. -/
theorem andThen_assoc (outcome : Outcome) (first second : Shell → Int → Outcome) :
    (outcome.andThen first).andThen second =
      outcome.andThen fun shell status => (first shell status).andThen second := by
  obtain ⟨shell, transcript, ending⟩ := outcome
  cases ending with
  | left status => rfl
  | broken breakdown => rfl
  | returned status =>
    simp only [andThen_returned]
    obtain ⟨shell', transcript', ending'⟩ := first shell status
    cases ending' with
    | left status' => rfl
    | broken breakdown' => rfl
    | returned status' => simp [after, andThen_returned]

end Outcome

namespace Shell

/-- The line that reports a failure at the present line. -/
def diagnosticLine (shell : Shell) (diagnostic : Diagnostic) : String :=
  diagnostic.render shell.programName shell.lineNumber ++ "\n"

/-- Reports a failure; its status is what the command returns. -/
def report (shell : Shell) (diagnostic : Diagnostic) : Outcome where
  shell := shell
  transcript := [.errors (shell.diagnosticLine diagnostic)]
  ending := .returned diagnostic.status

/-- What references are looked up in at present. -/
def scope (shell : Shell) : Scope where
  status := shell.lastStatus
  processId := shell.processId
  lookup := shell.environment.get?

/-- The words of a command as they are run: the alias is replaced first,
then all references are. -/
def prepare (shell : Shell) (words : List String) : List String :=
  shell.scope.expand (shell.aliases.expand words)

end Shell

end CommandShell
