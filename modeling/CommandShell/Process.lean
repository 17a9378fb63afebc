/-
CommandShell.Process — starting a program, waiting for it, and how it ended.

`Attempt.start` is what the system says to the request; `await` waits through
any number of interrupts; `launch` puts both together with what is logged.
-/
import CommandShell.Environment
import CommandShell.FileSystem.Walk
import CommandShell.Transcript

namespace CommandShell

/-- How a program that was to be run ended. -/
inductive ChildEnding
  | exited (code : Int)
  | signalled (signal : Int)
  /-- A process was made and could not become the program. -/
  | execFailed (reason : String) (errno : Option Errno)
  /-- No process could be made. -/
  | spawnFailed (reason : String) (errno : Option Errno)
  deriving Repr, DecidableEq

namespace ChildEnding

/-- The exit status that an ending gives a command. -/
def status : ChildEnding → Int
  | .exited code => code
  | .signalled signal => 128 + signal
  | .execFailed _ errno => if errno = some .enoent then 127 else 126
  | .spawnFailed _ _ => 1

/-- The ending that the code of a finished process tells: a negative one is
the number of a signal. -/
def ofCode (code : Int) : ChildEnding :=
  if code < 0 then .signalled (-code) else .exited code

end ChildEnding

namespace Refusal

/-- The wording of a refusal: the error's own words, or, where these are
empty, its number alone. -/
def reason : Refusal → String
  | .numbered errno none => errno.message
  | .numbered errno (some message) =>
    if message = "" then errno.numberedMessage message else message
  | .unnumbered message => message

/-- The number of a refusal. -/
def errno? : Refusal → Option Errno
  | .numbered errno _ => some errno
  | .unnumbered _ => none

end Refusal

/-- What the system says to a request to start a program. -/
inductive Start
  /-- A text of the request holds the character NUL. -/
  | embeddedNul
  | outOfMemory
  | refused (refusal : Refusal)
  | running (code : Int) (interrupts : Nat)
  deriving Repr, DecidableEq

/-- Whether a text holds the character NUL, which ends texts for the system. -/
def holdsNul (text : String) : Bool :=
  text.toList.contains '\x00'

/-- What the program of a file does when it is started. -/
def Program.start : Program → Start
  | .outOfMemory => .outOfMemory
  | .refused refusal => .refused refusal
  | .runs code interrupts => .running code interrupts

/-- What the system says to a request. No text may hold NUL, the executable
has to be a regular file that may be executed, and then its program decides. -/
def Attempt.start (attempt : Attempt) (world : World) : Start :=
  if holdsNul attempt.executable || attempt.arguments.any holdsNul ||
      attempt.environment.any holdsNul then .embeddedNul
  else
    match world.lookup attempt.executable with
    | .error .embeddedNul => .embeddedNul
    | .error (.system errno) => .refused (.numbered errno none)
    | .ok (.file file) =>
      if file.executable then file.program.start else .refused (.numbered .eacces none)
    | .ok _ => .refused (.numbered .eacces none)

/-- Waits for a running program. An interrupt reaches the program too, so the
wait goes on after it. -/
def await (code : Int) : Nat → ChildEnding
  | 0 => .ofCode code
  | interrupts + 1 => await code interrupts

/-- The process id that a started program gets. -/
def childProcessId : Nat := 777

/-- Errors that arise before the new process can become the program, told by
their numbers. -/
def Errno.isSpawnError (errno : Errno) : Bool :=
  errno.code = Errno.eagain.code ∨ errno.code = Errno.enomem.code

/-- The wording where a text holds NUL. -/
def embeddedNulMessage : String := "embedded null byte"

/-- Runs a program to its end: what can be seen of it, and how it ended. -/
def launch (world : World) (attempt : Attempt) : Transcript × ChildEnding :=
  let log (message : String) : Event := .log .processes message
  let execFailed (reason : String) (errno : Option Errno) : Transcript × ChildEnding :=
    ([.spawn attempt, log ("exec of " ++ attempt.executable ++ " failed: " ++ reason)],
      .execFailed reason errno)
  match attempt.start world with
  | .embeddedNul => execFailed embeddedNulMessage none
  | .outOfMemory => ([.spawn attempt], .spawnFailed Errno.enomem.message (some .enomem))
  | .refused refusal =>
    if refusal.errno?.any Errno.isSpawnError then
      ([.spawn attempt,
          log ("spawn of " ++ attempt.executable ++ " failed: " ++ refusal.reason)],
        .spawnFailed refusal.reason refusal.errno?)
    else execFailed refusal.reason refusal.errno?
  | .running code interrupts =>
    ([.spawn attempt,
        log ("started " ++ attempt.executable ++ " as pid " ++ toString childProcessId)],
      await code interrupts)

end CommandShell
