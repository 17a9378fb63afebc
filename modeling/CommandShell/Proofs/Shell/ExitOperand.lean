/-
CommandShell.Proofs.Shell.ExitOperand — what the operand of the command that
leaves the shell may be.

§1 says which texts write a number: its decimal digits, behind any number of
zeros (`Writes`). These are the texts of digits and no others
(`exists_writes_iff`), and a text writes one number at most (`Writes.valueOf_eq`).
§2 goes through all that can become of a text (`read_writes`,
`read_of_not_writes`). One length is part of every statement: of a text with more
than `digitLimit` digits no number is read at all, and this is no refusal of the
operand but a failure of the reading. §3 has the commands (`runCommand_exit`). Up
to that length a number that is small enough leaves the shell and everything else
is an illegal number; past it neither is so, whatever the number is.
-/
import CommandShell.Proofs.Shell.AliasUse
import CommandShell.Proofs.Shell.Answer
import Mathlib.Data.List.Induction

namespace CommandShell

/-! ## §1 Numbers -/

namespace ExitStatus

/-- The text writes the number in decimal digits, behind any number of zeros. -/
def Writes (text : String) (n : Nat) : Prop :=
  ∃ zeros, text.toList = List.replicate zeros '0' ++ Nat.toDigits 10 n

/-- A digit writes the number that it counts for. -/
theorem exists_digit {c : Char} (h : c.isDigit = true) :
    ∃ digit < 10, c.toNat - '0'.toNat = digit ∧ Nat.toDigits 10 digit = [c] := by
  have hbounds : 48 ≤ c.toNat ∧ c.toNat ≤ 57 := by
    simpa [Char.isDigit, UInt32.le_iff_toNat_le] using h
  have hchar : Nat.digitChar (c.toNat - 48) = c := by
    rw [← Char.toNat_inj, Nat.toNat_digitChar_of_lt_ten (by omega)]
    omega
  have hlt : c.toNat - 48 < 10 := by omega
  exact ⟨c.toNat - 48, hlt, rfl, by rw [Nat.toDigits_of_lt_base hlt, hchar]⟩

theorem valueOf_append_singleton (digits : List Char) (c : Char) :
    valueOf (digits ++ [c]) = 10 * valueOf digits + (c.toNat - '0'.toNat) := by
  simp [valueOf]

theorem valueOf_zeros_append (zeros : Nat) (digits : List Char) :
    valueOf (List.replicate zeros '0' ++ digits) = valueOf digits := by
  induction zeros with
  | zero => rfl
  | succ zeros ih => exact ih

theorem valueOf_toDigits (n : Nat) : valueOf (Nat.toDigits 10 n) = n :=
  Nat.ofDigitChars_toDigits (by decide) (by decide)

/-- Digits are those of their value, behind zeros. -/
theorem exists_eq_zeros_append {digits : List Char} (hne : digits ≠ [])
    (hdigits : ∀ c ∈ digits, c.isDigit = true) :
    ∃ zeros, digits = List.replicate zeros '0' ++ Nat.toDigits 10 (valueOf digits) := by
  induction digits using List.reverseRecOn with
  | nil => exact absurd rfl hne
  | append_singleton digits c ih =>
    obtain ⟨digit, hlt, hdigit, hlast⟩ := exists_digit (hdigits c (by simp))
    rw [valueOf_append_singleton, hdigit]
    by_cases hbefore : digits = []
    · subst hbefore
      exact ⟨0, by simp [valueOf, hlast]⟩
    · obtain ⟨zeros, hzeros⟩ := ih hbefore fun c hc => hdigits c (by simp [hc])
      by_cases hvalue : valueOf digits = 0
      · -- All digits so far are zeros, and the last of them begins no number any more.
        rw [hvalue, Nat.toDigits_of_lt_base (by decide)] at hzeros
        refine ⟨zeros + 1, ?_⟩
        rw [hvalue, hzeros, List.replicate_succ']
        simp [hlast]
      · have hpositive : 0 < valueOf digits := Nat.pos_of_ne_zero hvalue
        refine ⟨zeros, ?_⟩
        rw [← Nat.toDigits_append_toDigits (by decide) hpositive hlt, hlast, ← List.append_assoc,
          ← hzeros]

variable {text : String} {n : Nat}

theorem Writes.valueOf_eq (h : Writes text n) : valueOf text.toList = n := by
  obtain ⟨zeros, htext⟩ := h
  rw [htext, valueOf_zeros_append, valueOf_toDigits]

theorem Writes.toList_ne_nil (h : Writes text n) : text.toList ≠ [] := by
  obtain ⟨zeros, htext⟩ := h
  rw [htext]
  simp [Nat.toDigits_ne_nil]

theorem Writes.isDigit (h : Writes text n) : ∀ c ∈ text.toList, c.isDigit = true := by
  obtain ⟨zeros, htext⟩ := h
  intro c hc
  rw [htext] at hc
  rcases List.mem_append.mp hc with hzero | hdigit
  · obtain rfl := List.eq_of_mem_replicate hzero
    rfl
  · exact Nat.isDigit_of_mem_toDigits (by decide) (by decide) hdigit

/-- The texts that write a number are those of one digit or more. -/
theorem exists_writes_iff :
    (∃ n, Writes text n) ↔ text ≠ "" ∧ ∀ c ∈ text.toList, c.isDigit = true := by
  constructor
  · rintro ⟨n, h⟩
    exact ⟨fun hempty => h.toList_ne_nil (by simp [hempty]), h.isDigit⟩
  · rintro ⟨hne, hdigits⟩
    exact ⟨valueOf text.toList, exists_eq_zeros_append (by simpa using hne) hdigits⟩

/-! ## §2 What is read -/

theorem read_writes (h : Writes text n) :
    read text =
      if digitLimit < text.length then .error (.tooManyDigits text.length)
      else if greatest < n then .error .illegal
      else .ok (n % 256) := by
  have hdigits : ¬ (text.toList = [] ∨ text.toList.any (fun c => !c.isDigit) = true) := by
    simp only [not_or]
    exact ⟨h.toList_ne_nil, by simpa using h.isDigit⟩
  simp only [read, if_neg hdigits, h.valueOf_eq, String.length_toList]

theorem read_of_not_writes (h : ∀ n, ¬ Writes text n) : read text = .error .illegal := by
  have hdigits : text.toList = [] ∨ text.toList.any (fun c => !c.isDigit) = true := by
    by_contra hneither
    obtain ⟨hne, hall⟩ := not_or.mp hneither
    have hdigits : ∀ c ∈ text.toList, c.isDigit = true := by simpa using hall
    exact (exists_writes_iff.mpr ⟨by simpa using hne, hdigits⟩).elim h
  simp only [read, if_pos hdigits]

end ExitStatus

/-! ## §3 The command -/

namespace Shell

/-- The events with which the command begins, whatever its operand. -/
def exitBegins (operands : List String) : Transcript :=
  [.dispatch ("exit" :: operands), .log .dispatcher ("builtin exit " ++ Text.quotedList operands)]

/-- What becomes of the command is decided by what is read of its operand. -/
theorem runCommand_exit {shell : Shell} (h : shell.builtins = Builtin.standard)
    {words more : List String} {operand : String}
    (hprepared : shell.prepare words = "exit" :: operand :: more) :
    shell.runCommand words =
      match ExitStatus.read operand with
      | .ok status => ⟨shell, exitBegins (operand :: more), .left status⟩
      | .error .illegal =>
        ⟨{ shell with lastStatus := 2 },
          exitBegins (operand :: more) ++
            [.errors (shell.diagnosticLine ⟨"Illegal number: " ++ operand, 2, some "exit"⟩)],
          .returned 2⟩
      | .error (.tooManyDigits count) =>
        ⟨{ shell with lastStatus := 1 },
          exitBegins (operand :: more) ++ [.log .dispatcher "builtin exit raised",
            .errors (shell.diagnosticLine
              (.unforeseen (ExitStatus.tooManyDigitsMessage count) ["exit"]))],
          .returned 1⟩ := by
  obtain ⟨entry, hlookup, hentry⟩ := Builtin.IsStandard.exit.exists_lookup
  have hname : entry.name = "exit" := by simpa using List.find?_some hlookup
  have hanswer : entry.handler.perform shell "exit" (operand :: more) =
      (shell, Builtin.exit shell (operand :: more)) := by
    rw [hentry]
    rfl
  rw [runCommand, hprepared, runPrepared_builtin (h ▸ hlookup), hname, runBuiltin, hanswer, hname,
    Builtin.exit]
  cases ExitStatus.read operand with
  | ok status => rfl
  | error refusal => cases refusal <;> rfl

end Shell

open ExitStatus (Writes greatest digitLimit)

/-- **A number up to 2^31 - 1 leaves the shell, and any other operand is an illegal
number.** This is so in every state of a shell with the standard builtins, however
the first operand came about and whatever follows it, as long as a number is
written with no more than `digitLimit` digits. The low eight bits of the number
are the status that the shell is left with, and nothing else happens. An illegal
number is reported in one line, the command has the status 2, all that is changed
is the last status, and whatever was to come next goes on from there. With more
digits the reading of the number breaks down, whether the number itself is small or
great, and it is that which is reported. -/
theorem exit_reads_operand {shell : Shell} (h : shell.builtins = Builtin.standard)
    {words more : List String} {operand : String}
    (hprepared : shell.prepare words = "exit" :: operand :: more) :
    (∀ n ≤ greatest, Writes operand n → operand.length ≤ digitLimit →
      shell.runCommand words =
        ⟨shell, Shell.exitBegins (operand :: more), .left (n % 256 : Nat)⟩) ∧
    ((∀ n, Writes operand n → greatest < n ∧ operand.length ≤ digitLimit) →
      let refusal : Diagnostic := ⟨"Illegal number: " ++ operand, 2, some "exit"⟩
      let after := { shell with lastStatus := 2 }
      let seen := Shell.exitBegins (operand :: more) ++ [.errors (shell.diagnosticLine refusal)]
      shell.runCommand words = ⟨after, seen, .returned 2⟩ ∧
        ∀ next, (shell.runCommand words).andThen next = (next after 2).after seen) ∧
    (∀ n, Writes operand n → digitLimit < operand.length →
      let failure : Diagnostic :=
        .unforeseen (ExitStatus.tooManyDigitsMessage operand.length) ["exit"]
      shell.runCommand words =
        ⟨{ shell with lastStatus := 1 },
          Shell.exitBegins (operand :: more) ++
            [.log .dispatcher "builtin exit raised", .errors (shell.diagnosticLine failure)],
          .returned 1⟩) := by
  have hrun := Shell.runCommand_exit h hprepared
  refine ⟨fun n hsmall hwrites hlength => ?_, fun hnone => ?_, fun n hwrites hlong => ?_⟩
  · have hread : ExitStatus.read operand = .ok (n % 256) := by
      rw [ExitStatus.read_writes hwrites, if_neg (Nat.not_lt.mpr hlength),
        if_neg (Nat.not_lt.mpr hsmall)]
    simpa only [hread] using hrun
  · have hread : ExitStatus.read operand = .error .illegal := by
      by_cases hnumber : ∃ n, Writes operand n
      · obtain ⟨n, hwrites⟩ := hnumber
        obtain ⟨hgreat, hlength⟩ := hnone n hwrites
        rw [ExitStatus.read_writes hwrites, if_neg (Nat.not_lt.mpr hlength), if_pos hgreat]
      · exact ExitStatus.read_of_not_writes (not_exists.mp hnumber)
    simp only [hread] at hrun
    refine ⟨hrun, fun next => ?_⟩
    rw [hrun]
    rfl
  · have hread : ExitStatus.read operand = .error (.tooManyDigits operand.length) := by
      rw [ExitStatus.read_writes hwrites, if_pos hlong]
    simpa only [hread] using hrun

/-- Zeros in front count for nothing, and of a number the low eight bits are the
status; a reference that stands for nothing leaves an operand that is no
number. -/
theorem exit_reads_operand_zeros :
    let shell : Shell :=
      { programName := "minish", processId := 1, environment := {}, world := {},
        builtins := Builtin.standard }
    let seen := Shell.exitBegins [""] ++
      [.errors (shell.diagnosticLine ⟨"Illegal number: ", 2, some "exit"⟩)]
    shell.runCommand ["exit", "00300", "x"] =
        ⟨shell, Shell.exitBegins ["00300", "x"], .left 44⟩ ∧
      shell.runCommand ["exit", "$X"] = ⟨{ shell with lastStatus := 2 }, seen, .returned 2⟩ ∧
      Transcript.errors seen false = "minish: 0: exit: Illegal number: \n" := by
  intro shell seen
  have hzeros : shell.prepare ["exit", "00300", "x"] = ["exit", "00300", "x"] := by decide +kernel
  have hempty : shell.prepare ["exit", "$X"] = ["exit", ""] := by decide +kernel
  obtain ⟨hleft, -⟩ := exit_reads_operand rfl hzeros
  obtain ⟨-, hrefused, -⟩ := exit_reads_operand rfl hempty
  have hnone : ∀ n, ¬ Writes "" n := fun n hwrites => hwrites.toList_ne_nil rfl
  have hrun := hrefused fun n hwrites => absurd hwrites (hnone n)
  exact ⟨hleft 300 (by decide) ⟨2, by decide⟩ (by decide), hrun.1, by decide +kernel⟩

/-- A text of zeros that is too long to be read writes the number zero, and the
shell is not left. -/
theorem long_zeros_fail :
    let shell : Shell :=
      { programName := "minish", processId := 1, environment := {}, world := {},
        builtins := Builtin.standard }
    let operand := String.ofList (List.replicate 4301 '0')
    Writes operand 0 ∧ (shell.runCommand ["exit", operand]).ending = .returned 1 := by
  intro shell operand
  have hwrites : Writes operand 0 :=
    ⟨4300, by rw [String.toList_ofList, List.replicate_succ']; rfl⟩
  have hlong : digitLimit < operand.length := by
    rw [String.length_ofList, List.length_replicate]
    decide
  have hread : ExitStatus.read operand = .error (.tooManyDigits operand.length) := by
    rw [ExitStatus.read_writes hwrites, if_pos hlong]
  have hdollar : '$' ∉ operand.toList := by
    rw [String.toList_ofList]
    exact fun hmem => absurd (List.eq_of_mem_replicate hmem) (by decide)
  have hplain : ∀ word ∈ ["exit", operand], '$' ∉ word.toList := by
    simpa using hdollar
  have hprepared : shell.prepare ["exit", operand] = ["exit", operand] :=
    Scope.expand_of_plain shell.scope hplain
  have hrun := Shell.runCommand_exit rfl hprepared
  simp only [hread] at hrun
  exact ⟨hwrites, by rw [hrun]⟩

end CommandShell
