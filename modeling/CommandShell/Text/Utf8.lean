/-
CommandShell.Text.Utf8 — reading bytes as UTF-8 without ever failing.

Each maximal part of an ill-formed sequence becomes one replacement
character: a byte that cannot go on with the sequence under way closes it
and is itself read afresh.
-/

namespace CommandShell.Text.Utf8

/-- A sequence under way: the bits read so far, how many bytes are missing,
and the bounds of the next one. -/
structure Pending where
  code : Nat
  missing : Nat
  least : Nat
  greatest : Nat
  deriving Repr, DecidableEq

/-- What stands for an ill-formed part. -/
def replacement : Char := '\uFFFD'

/-- A byte read where no sequence is under way: it is a character, or it
opens a sequence, or it is replaced. The bounds on the second byte shut out
overlong forms, surrogates and code points above the last one. -/
def opening (byte : Nat) : List Char × Option Pending :=
  if byte < 0x80 then ([Char.ofNat byte], none)
  else if byte < 0xC2 then ([replacement], none)
  else if byte < 0xE0 then ([], some ⟨byte - 0xC0, 1, 0x80, 0xBF⟩)
  else if byte < 0xF0 then
    ([], some ⟨byte - 0xE0, 2, if byte = 0xE0 then 0xA0 else 0x80,
      if byte = 0xED then 0x9F else 0xBF⟩)
  else if byte < 0xF5 then
    ([], some ⟨byte - 0xF0, 3, if byte = 0xF0 then 0x90 else 0x80,
      if byte = 0xF4 then 0x8F else 0xBF⟩)
  else ([replacement], none)

/-- One byte more: the characters it completes and the sequence then under way. -/
def step (state : Option Pending) (byte : Nat) : List Char × Option Pending :=
  match state with
  | none => opening byte
  | some p =>
    if p.least ≤ byte ∧ byte ≤ p.greatest then
      let code := p.code * 64 + (byte - 0x80)
      if p.missing ≤ 1 then ([Char.ofNat code], none)
      else ([], some ⟨code, p.missing - 1, 0x80, 0xBF⟩)
    else
      let (chars, state) := opening byte
      (replacement :: chars, state)

/-- The characters of the bytes that follow in a given state; a sequence cut
off by the end is replaced. -/
def decodeFrom (state : Option Pending) : List UInt8 → List Char
  | [] => if state.isSome then [replacement] else []
  | byte :: rest =>
    let (chars, state) := step state byte.toNat
    chars ++ decodeFrom state rest

/-- The text that the bytes spell. -/
def decode (bytes : List UInt8) : String :=
  String.ofList (decodeFrom none bytes)

end CommandShell.Text.Utf8
