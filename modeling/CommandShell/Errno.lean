/-
CommandShell.Errno — the numbered errors of the operating system.

The errors that files and programs are known to end with have names. Any other
number the system may answer with is an error too, with its own wording; it is
never one of the numbers that have a name (`Errno.other`), so an error is told
by its number.
-/

namespace CommandShell

/-- The numbers of the errors that have names. -/
def Errno.namedCodes : List Nat :=
  [1, 2, 4, 5, 7, 8, 11, 12, 13, 20, 21, 26, 40]

/-- An error that a request to the system ends with. -/
inductive Errno
  | eperm
  | enoent
  | eintr
  | eio
  | e2big
  | enoexec
  | eagain
  | enomem
  | eacces
  | enotdir
  | eisdir
  | etxtbsy
  | eloop
  /-- Any other number, with the wording that the system has for it. -/
  | other (number : Nat) (wording : String) (h : number ∉ Errno.namedCodes)
  deriving Repr, DecidableEq

namespace Errno

/-- The number of an error. -/
def code : Errno → Nat
  | .eperm => 1
  | .enoent => 2
  | .eintr => 4
  | .eio => 5
  | .e2big => 7
  | .enoexec => 8
  | .eagain => 11
  | .enomem => 12
  | .eacces => 13
  | .enotdir => 20
  | .eisdir => 21
  | .etxtbsy => 26
  | .eloop => 40
  | .other number _ _ => number

/-- The symbolic name of an error, if it has one here. -/
def name : Errno → Option String
  | .eperm => "EPERM"
  | .enoent => "ENOENT"
  | .eintr => "EINTR"
  | .eio => "EIO"
  | .e2big => "E2BIG"
  | .enoexec => "ENOEXEC"
  | .eagain => "EAGAIN"
  | .enomem => "ENOMEM"
  | .eacces => "EACCES"
  | .enotdir => "ENOTDIR"
  | .eisdir => "EISDIR"
  | .etxtbsy => "ETXTBSY"
  | .eloop => "ELOOP"
  | .other _ _ _ => none

/-- The standard wording of an error. -/
def message : Errno → String
  | .eperm => "Operation not permitted"
  | .enoent => "No such file or directory"
  | .eintr => "Interrupted system call"
  | .eio => "Input/output error"
  | .e2big => "Argument list too long"
  | .enoexec => "Exec format error"
  | .eagain => "Resource temporarily unavailable"
  | .enomem => "Cannot allocate memory"
  | .eacces => "Permission denied"
  | .enotdir => "Not a directory"
  | .eisdir => "Is a directory"
  | .etxtbsy => "Text file busy"
  | .eloop => "Too many levels of symbolic links"
  | .other _ wording _ => wording

/-- The errors that have names, in order of their numbers. -/
def named : List Errno :=
  [.eperm, .enoent, .eintr, .eio, .e2big, .enoexec, .eagain, .enomem, .eacces, .enotdir, .eisdir,
    .etxtbsy, .eloop]

/-- The error with a symbolic name. -/
def ofName? (name : String) : Option Errno :=
  named.find? fun errno => errno.name = some name

/-- The number of an error in brackets and its wording. -/
def numberedMessage (errno : Errno) (message : String) : String :=
  "[Errno " ++ toString errno.code ++ "] " ++ message

end Errno

end CommandShell
