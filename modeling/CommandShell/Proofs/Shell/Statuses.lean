/-
CommandShell.Proofs.Shell.Statuses — exit statuses stay in a byte.

The exit without an operand hands the last status on as it is, so that the
statuses of all commands have to be known before one can say what the shell is
left with. §1 lists what the status of a command may be (`Shell.StatusOf`): one
of the shell's own, or one that a program ended with. §2 shows that there are
no others, whatever runs the command. §3 takes this through a course as an
invariant of the states: the last status is in range, and so are all programs
that can be found (`Shell.Orderly`).
-/
import CommandShell.Proofs.FileSystem.Programs
import CommandShell.Proofs.Shell.Launch
import CommandShell.Proofs.Shell.Touch

namespace CommandShell

/-! ## §1 What a status may be -/

def InByte (status : Int) : Prop := 0 ≤ status ∧ status ≤ 255

instance (status : Int) : Decidable (InByte status) :=
  inferInstanceAs (Decidable (_ ∧ _))

/-- A program that ends with a code in range or by a signal, if it can be
started at all. -/
def Program.Orderly : Program → Prop
  | .outOfMemory | .refused _ => True
  | .runs code _ => (0 ≤ code ∧ code ≤ 255) ∨ (-127 ≤ code ∧ code ≤ -1)

/-- All programs of the world are such. -/
def World.Orderly (world : World) : Prop :=
  world.Programs Program.Orderly

/-- What the status of a command may be, given its words as they are prepared:
one of the five that the shell itself gives, or else the code of the program
that they started, or the number of the signal that ended it, and 128. -/
inductive Shell.StatusOf (shell : Shell) (words : List String) : Int → Prop
  | own {status : Int} (h : status ∈ [0, 1, 2, 126, 127]) : StatusOf shell words status
  | exited {attempt : Attempt} {code : Int} {interrupts : Nat}
      (hattempt : shell.attempt? words = some attempt)
      (hstart : attempt.start shell.world = .running code interrupts)
      (hcode : 0 ≤ code ∧ code ≤ 255) : StatusOf shell words code
  | signalled {attempt : Attempt} {signal : Int} {interrupts : Nat}
      (hattempt : shell.attempt? words = some attempt)
      (hstart : attempt.start shell.world = .running (-signal) interrupts)
      (hsignal : 1 ≤ signal ∧ signal ≤ 127) : StatusOf shell words (128 + signal)

theorem inByte_of_mem {status : Int} (h : status ∈ [0, 1, 2, 126, 127]) : InByte status := by
  have hall : ∀ value ∈ [0, 1, 2, 126, 127], InByte value := by decide
  exact hall status h

namespace Shell

variable {shell : Shell} {words : List String} {status : Int}

theorem StatusOf.inByte (h : shell.StatusOf words status) : InByte status := by
  cases h with
  | own h => exact inByte_of_mem h
  | exited _ _ hcode => exact hcode
  | signalled _ _ hsignal => exact ⟨by omega, by omega⟩

end Shell

/-! ## §2 The status of a command -/

theorem Fault.status_mem (fault : Fault) : fault.status ∈ [0, 1, 2, 126, 127] := by
  obtain ⟨cause, command⟩ := fault
  cases cause <;> simp [status, Cause.status]

theorem ExitStatus.read_lt {text : String} {status : Nat} (h : ExitStatus.read text = .ok status) :
    status < 256 := by
  unfold read at h
  dsimp only at h
  split at h
  · cases h
  · split at h
    · cases h
    · split at h
      · cases h
      · cases h
        exact Nat.mod_lt _ (by decide)

theorem ChildEnding.exited_eq_ofCode_iff {code value : Int} :
    .exited code = ofCode value ↔ 0 ≤ value ∧ code = value := by
  unfold ofCode
  split
  · simp only [reduceCtorEq, false_iff]
    omega
  · simp only [exited.injEq]
    omega

theorem ChildEnding.signalled_eq_ofCode_iff {signal value : Int} :
    .signalled signal = ofCode value ↔ value < 0 ∧ value = -signal := by
  unfold ofCode
  split
  · simp only [signalled.injEq]
    omega
  · simp only [reduceCtorEq, false_iff]
    omega

namespace Shell

variable {shell : Shell} {words : List String} {status : Int}

theorem statusOf_runBuiltin (h : shell.builtins = Builtin.standard) {command : String}
    {entry : Registry.Entry Action} (hlookup : shell.builtins.lookup command = some entry)
    {operands : List String}
    (hstatus : (shell.runBuiltin entry command operands).ending = .returned status) :
    status ∈ [0, 1, 2, 126, 127] := by
  rw [ending_runBuiltin] at hstatus
  by_cases halias : command = "alias"
  · subst halias
    have hentry := Builtin.IsStandard.aliases.handler_eq (h ▸ hlookup)
    rw [Builtin.perform_aliases hentry] at hstatus
    obtain rfl : (if shell.aliases.unknown (AliasOperand.ofWords operands) = [] then 0 else 1) =
        status := Ending.returned.inj hstatus
    split <;> decide
  · rcases hperform : entry.handler.perform shell command operands with ⟨after, reply⟩
    rw [hperform] at hstatus
    cases reply with
    | done result =>
      cases hstatus
      rw [(quiet_of_done h hlookup halias hperform).2]
      decide
    | failed fault =>
      cases hstatus
      exact fault.status_mem
    | crashed message =>
      cases hstatus
      decide
    | leave value => cases hstatus

/-- What follows from the way a program ended, where it is concluded in
whatever state. -/
theorem statusOf_concludeChild {after : Shell} {command : String} {attempt : Attempt}
    (hworld : shell.world.Orderly) (hattempt : shell.attempt? words = some attempt)
    (hstatus : (after.concludeChild command (launch shell.world attempt).2).ending =
      .returned status) : shell.StatusOf words status := by
  generalize hending : (launch shell.world attempt).2 = ending at hstatus
  cases ending with
  | exited code =>
    obtain rfl : code = status := Ending.returned.inj hstatus
    obtain ⟨value, interrupts, hstart, hcode⟩ := start_of_launch hending (by simp) (by simp)
    obtain ⟨hpositive, rfl⟩ := ChildEnding.exited_eq_ofCode_iff.mp hcode
    have hrange : (0 ≤ code ∧ code ≤ 255) ∨ (-127 ≤ code ∧ code ≤ -1) := hworld.start hstart
    exact .exited hattempt hstart (by omega)
  | signalled signal =>
    cases hstatus
    obtain ⟨value, interrupts, hstart, hcode⟩ := start_of_launch hending (by simp) (by simp)
    obtain ⟨hnegative, rfl⟩ := ChildEnding.signalled_eq_ofCode_iff.mp hcode
    have hrange : (0 ≤ -signal ∧ -signal ≤ 255) ∨ (-127 ≤ -signal ∧ -signal ≤ -1) :=
      hworld.start hstart
    exact .signalled hattempt hstart (by omega)
  | execFailed reason errno =>
    unfold concludeChild at hstatus
    dsimp only at hstatus
    split at hstatus
    · cases hstatus
      exact .own (Fault.status_mem ⟨.commandNotFound, some command⟩)
    · cases hstatus
      exact .own (Fault.status_mem ⟨.permissionDenied reason, some command⟩)
  | spawnFailed reason errno =>
    cases hstatus
    exact .own (Fault.status_mem ⟨.spawnFailed reason, some command⟩)

theorem statusOf_runExternal (hworld : shell.world.Orderly) {command : String}
    (hlookup : shell.builtins.lookup command = none) {operands : List String}
    (hstatus : (shell.runExternal command operands).ending = .returned status) :
    shell.StatusOf (command :: operands) status := by
  unfold runExternal at hstatus
  dsimp only at hstatus
  split at hstatus
  · cases hstatus
    exact .own (Fault.status_mem ⟨.commandNotFound, some command⟩)
  · next location hlocation =>
    have hattempt : shell.attempt? (command :: operands) =
        some ⟨location, command :: operands, shell.environment.lines⟩ := by
      simp [attempt?, hlookup, hlocation]
    exact statusOf_concludeChild hworld hattempt hstatus

theorem statusOf_runPrepared (h : shell.builtins = Builtin.standard)
    (hworld : shell.world.Orderly) (hstatus : (shell.runPrepared words).ending = .returned status) :
    shell.StatusOf words status := by
  cases words with
  | nil =>
    cases hstatus
    exact .own (by decide)
  | cons command operands =>
    cases hlookup : shell.builtins.lookup command with
    | some entry =>
      rw [runPrepared_builtin hlookup] at hstatus
      exact .own (statusOf_runBuiltin h hlookup hstatus)
    | none =>
      rw [runPrepared] at hstatus
      simp only [hlookup] at hstatus
      exact statusOf_runExternal hworld hlookup hstatus

/-- The status that the shell is left with is the last one, or one that an
operand gives. -/
theorem left_runPrepared (h : shell.builtins = Builtin.standard)
    (hleft : (shell.runPrepared words).ending = .left status) :
    (words = ["exit"] ∧ status = shell.lastStatus) ∨
      ∃ operand more value, words = "exit" :: operand :: more ∧
        ExitStatus.read operand = .ok value ∧ status = value := by
  have hexit := (exists_left_runPrepared_iff h words).mp ⟨status, hleft⟩
  obtain ⟨entry, hlookup, hentry⟩ := Builtin.IsStandard.exit.exists_lookup
  obtain ⟨operands, rfl⟩ := hexit.exists_operands
  rw [runPrepared_builtin (h ▸ hlookup), Outcome.after_ending, left_runBuiltin_iff, hentry] at hleft
  cases hexit with
  | bare =>
    cases hleft
    exact .inl ⟨rfl, rfl⟩
  | @status operand value hread more =>
    have hanswer : (Action.exit.perform shell "exit" (operand :: more)).2 = .leave value := by
      simp [Action.perform, Builtin.exit, hread]
    rw [hanswer] at hleft
    cases hleft
    exact .inr ⟨operand, more, value, rfl, hread, rfl⟩

end Shell

/-! ## §3 Statuses all along -/

/-- The builtins are the standard ones, all programs are in order, and the last
status is in range. -/
structure Shell.Orderly (shell : Shell) : Prop where
  builtins : shell.builtins = Builtin.standard
  world : shell.world.Orderly
  lastStatus : InByte shell.lastStatus

namespace Shell.Orderly

variable {shell : Shell} (h : shell.Orderly) {words : List String} {status : Int}
include h

theorem runPrepared (words : List String) : (shell.runPrepared words).shell.Orderly := by
  obtain ⟨environment, aliases, searchPath, world, hshell, -, hmoves⟩ :=
    touches_runPrepared shell words
  rw [hshell]
  exact ⟨h.builtins, h.world.moves hmoves, h.lastStatus⟩

theorem inByte_of_left (hleft : (shell.runPrepared words).ending = .left status) :
    InByte status := by
  rcases left_runPrepared h.builtins hleft with ⟨-, rfl⟩ | ⟨operand, more, value, -, hread, rfl⟩
  · exact h.lastStatus
  · have hlt := ExitStatus.read_lt hread
    exact ⟨by omega, by omega⟩

end Shell.Orderly

namespace Invariant

/-- Shells are in order and statuses in range. -/
def ofStatuses : Invariant where
  state := Shell.Orderly
  attempt _ := True
  status := InByte

theorem kept_ofStatuses : ofStatuses.Kept where
  prepared {shell} hstate words := by
    refine ⟨hstate.runPrepared words, fun _ _ => trivial, fun value hvalue => ?_⟩
    cases hending : (shell.runPrepared words).ending with
    | returned status =>
      obtain rfl : status = value := by simpa [Outcome.status, hending] using hvalue
      exact (Shell.statusOf_runPrepared hstate.builtins hstate.world hending).inByte
    | left status =>
      obtain rfl : status = value := by simpa [Outcome.status, hending] using hvalue
      exact hstate.inByte_of_left hending
    | broken breakdown => simp [Outcome.status, hending] at hvalue
  fault fault := inByte_of_mem fault.status_mem
  lastStatus hstate := hstate.lastStatus
  settled hstate hstatus := ⟨hstate.builtins, hstate.world, hstatus⟩
  numbered hstate _ := ⟨hstate.builtins, hstate.world, hstate.lastStatus⟩

end Invariant

/-- The status of a command that is run in a state: the one it returns, the one
that it leaves the shell with, and the last status before it and after it. -/
structure Shell.Ranged (shell : Shell) (words : List String) : Prop where
  before : InByte shell.lastStatus
  after : InByte (shell.runCommand words).shell.lastStatus
  returned : ∀ status, (shell.runCommand words).ending = .returned status →
    shell.StatusOf (shell.prepare words) status ∧ InByte status
  left : ∀ status, (shell.runCommand words).ending = .left status → InByte status
  bare : shell.prepare words = ["exit"] → (shell.runCommand words).ending = .left shell.lastStatus

theorem Shell.Orderly.ranged {shell : Shell} (h : shell.Orderly) (words : List String) :
    shell.Ranged words where
  before := h.lastStatus
  after := (Invariant.kept_ofStatuses.runCommand h words).state.lastStatus
  returned status hstatus := by
    rw [ending_runCommand] at hstatus
    have hstatusOf := statusOf_runPrepared h.builtins h.world hstatus
    exact ⟨hstatusOf, hstatusOf.inByte⟩
  left status hleft := by
    rw [ending_runCommand] at hleft
    exact h.inByte_of_left hleft
  bare hprepared := by
    rw [ending_runCommand, hprepared]
    obtain ⟨entry, hlookup, hentry⟩ := Builtin.IsStandard.exit.exists_lookup
    rw [runPrepared_builtin (h.builtins ▸ hlookup), Outcome.after_ending, ending_runBuiltin, hentry]
    rfl

/-- **Exit statuses stay in a byte.** Let all programs end with a code from 0 to
255 or by a signal from 1 to 127, if they can be started. Then in every state of
a course the last status is in range, and whatever is run there leaves it in
range and comes to a status in range, if to any: this is what the shell is left
with, and what a text, a stream or a script returns. Every command, run by
itself or dispatched by a line, returns 0, 1, 2, 126, 127, the code of its
program, or 128 and the number of a signal; and an exit without an operand
leaves the shell with the last status, which is in range. -/
theorem statuses_in_byte (programName : String) (processId : Int)
    (pairs : List (String × String)) {world : World} (hworld : world.Orderly) {shell : Shell}
    (h : Course World.Orderly
      { programName, processId, environment := .ofPairs pairs, world,
        builtins := Builtin.standard } shell) :
    InByte shell.lastStatus ∧
      (∀ outcome, shell.Runs outcome →
        InByte outcome.shell.lastStatus ∧
          ∀ status, outcome.status = .ok status → InByte status) ∧
      (∀ words, shell.Ranged words) ∧
      ∀ line, ∀ dispatch ∈ shell.dispatches line, dispatch.state.Ranged dispatch.words := by
  have hkept := Invariant.kept_ofStatuses
  have hzero : InByte 0 := by decide
  have hstate : shell.Orderly := by
    refine hkept.course ⟨rfl, hworld, hzero⟩ ?_ h
    exact fun _ _ hstate hchange => ⟨hstate.builtins, hchange, hstate.lastStatus⟩
  refine ⟨hstate.lastStatus, fun outcome hrun => ?_, hstate.ranged, fun line dispatch hmem => ?_⟩
  · have hholds := hkept.runs hstate hrun
    exact ⟨hholds.state.lastStatus, hholds.status⟩
  · exact (hkept.dispatches hstate line dispatch hmem).1.ranged dispatch.words

/-- A directory with a program that is ended by the signal with the greatest
number. -/
def World.withKilled : World where
  root := .directory true
    [("bin", .directory true [("x", .file { executable := true, program := .runs (-127) 2 })])]

theorem World.orderly_withKilled : withKilled.Orderly := by
  have hprogram : (Node.file { executable := true, program := .runs (-127) 2 }).Programs
      Program.Orderly := Node.programs_file (.inr ⟨by decide, by decide⟩)
  have hbin : ∀ entry ∈ [("x", Node.file { executable := true, program := .runs (-127) 2 })],
      entry.2.Programs Program.Orderly := by simpa using hprogram
  refine ⟨Node.programs_directory ?_, trivial⟩
  simpa using Node.programs_directory hbin

/-- A program is ended by a signal, and the exit after it hands the status on. -/
theorem statuses_in_byte_killed :
    let shell : Shell :=
      { programName := "minish", processId := 1, environment := .ofPairs [("PATH", "/bin")],
        world := .withKilled, builtins := Builtin.standard }
    let outcome := shell.runText "x ; exit"
    outcome.status = .ok 255 ∧ InByte 255 ∧ InByte outcome.shell.lastStatus := by
  intro shell outcome
  have hstatus : outcome.status = .ok 255 := by decide +kernel
  obtain ⟨-, hruns, -⟩ := statuses_in_byte "minish" 1 [("PATH", "/bin")]
    World.orderly_withKilled .start
  obtain ⟨hlast, hall⟩ := hruns outcome (.text "x ; exit")
  exact ⟨hstatus, hall 255 hstatus, hlast⟩

end CommandShell
