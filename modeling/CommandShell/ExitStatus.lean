/-
CommandShell.ExitStatus — the operand that gives the shell its exit status.

Only ASCII decimal digits make a number, numbers go up to `greatest`, and of a
number the low eight bits are the status.
-/

namespace CommandShell.ExitStatus

/-- Why a text gives no exit status. -/
inductive Refusal
  /-- Not digits, or too great a number. -/
  | illegal
  /-- More digits than are read at all. -/
  | tooManyDigits (count : Nat)
  deriving Repr, DecidableEq

/-- The greatest number that is accepted, 2^31 - 1. -/
def greatest : Nat := 2147483647

/-- The most digits that are read, leading zeros included. -/
def digitLimit : Nat := 4300

/-- The number that decimal digits write. -/
def valueOf (digits : List Char) : Nat :=
  digits.foldl (fun n c => 10 * n + (c.toNat - '0'.toNat)) 0

/-- The exit status that a text gives. -/
def read (text : String) : Except Refusal Nat :=
  let digits := text.toList
  if digits = [] ∨ digits.any (fun c => !c.isDigit) then .error .illegal
  else if digitLimit < digits.length then .error (.tooManyDigits digits.length)
  else if greatest < valueOf digits then .error .illegal
  else .ok (valueOf digits % 256)

/-- The wording for a text with too many digits. -/
def tooManyDigitsMessage (count : Nat) : String :=
  "Exceeds the limit (" ++ toString digitLimit ++
    " digits) for integer string conversion: value has " ++ toString count ++
    " digits; use sys.set_int_max_str_digits() to increase the limit"

end CommandShell.ExitStatus
