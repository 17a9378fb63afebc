/-
CommandShell.Builtin.ChangeDirectory — changing the working directory.

After a change PWD names the new directory and OLDPWD the one before. PWD is
worked out on the text alone, from the old path and the target.
-/
import CommandShell.FileSystem.Walk
import CommandShell.Shell.State

namespace CommandShell.Builtin

/-- Where to go, and whether the new directory is to be shown. -/
structure Destination where
  target : String
  announced : Bool := false
  deriving Repr, DecidableEq

/-- The value of a variable that has to be there and not be empty. -/
def required (env : Environment) (name : String) : Except Fault String :=
  match env.get? name with
  | none | some "" => .error ⟨.general (name ++ " not set"), some "cd"⟩
  | some value => .ok value

/-- Where the operands say to go: home without an operand or with two
dashes, back with one dash. No other operand may start with a dash, and
operands after the first do not count. -/
def destination (env : Environment) (operands : List String) : Except Fault Destination :=
  match operands with
  | [] => (required env "HOME").map (⟨·, false⟩)
  | operand :: _ =>
    if operand = "--" then (required env "HOME").map (⟨·, false⟩)
    else if operand = "-" then (required env "OLDPWD").map (⟨·, true⟩)
    else if operand.toList.head? = some '-' then
      .error ⟨.usage ("Illegal option " ++ operand), none⟩
    else .ok ⟨operand, false⟩

/-- The path of the working directory; of one that was removed, what PWD
says it is. -/
def presentPath (shell : Shell) : String :=
  match shell.world.workingPath? with
  | some path => path
  | none => (shell.environment.get? "PWD").getD ""

/-- Records a change of directory in the variables. -/
def recordChange (shell : Shell) (previous new : String) : Shell × Bool :=
  match shell.environment.set? "OLDPWD" previous with
  | none => (shell, false)
  | some environment =>
    let shell := { shell with environment }
    match shell.environment.set? "PWD" new with
    | none => (shell, false)
    | some environment => ({ shell with environment }, true)

/-- The path of the new directory, given the old path and the target. Where
the old path is not known the new directory is asked for its own. -/
def newPath? (world : World) (previous target : String) : Option String :=
  if previous = "" then world.workingPath?
  else some (Path.normalise (Path.join previous target))

/-- Changes the working directory. -/
def cd (shell : Shell) (operands : List String) : Shell × Reply :=
  match destination shell.environment operands with
  | .error fault => (shell, .failed fault)
  | .ok destination =>
    let previous := presentPath shell
    match shell.world.changeDirectory destination.target with
    | .error _ => (shell, .failed (.changeDirectory destination.target))
    | .ok world =>
      let shell := { shell with world }
      match newPath? world previous destination.target with
      | none => (shell, .crashed (Errno.enoent.numberedMessage Errno.enoent.message))
      | some new =>
        let (shell, recorded) := recordChange shell previous new
        if recorded then
          (shell, .done { output := if destination.announced then new ++ "\n" else "" })
        else (shell, .failed .environmentUpdate)

end CommandShell.Builtin
