/-
CommandShell.Proofs.Shell.ProgramEnding — what the start of a program and the
wait for it come to.

§1 says on its own terms which status and which reason there is for each way in
which a start and a wait can go (`Verdict`); in between are the words of the
errors of the system (`Wording`). Interrupts have no part in it
(`Verdict.unique`). §2 shows it of any request in any world. Two things decide
there one after the other: what the process ended with has a status of its own,
and the command goes by it once more and makes a fault of it. Both come to the
verdict (`Decided`, one lemma for each kind of start). §3 has the commands that
make such requests: whatever path the program was found at, the report is under
the name that was given.
-/
import CommandShell.Proofs.Shell.Answer
import CommandShell.Proofs.Shell.Launch

namespace CommandShell

/-! ## §1 Verdicts -/

/-- The words of an error: those that it brings, or its full text, which of a
numbered error without words is the number alone. -/
inductive Wording : Refusal → String → Prop
  | standard (errno : Errno) : Wording (.numbered errno none) errno.message
  | own {message : String} (h : message ≠ "") (errno : Errno) :
      Wording (.numbered errno (some message)) message
  | blank (errno : Errno) :
      Wording (.numbered errno (some "")) ("[Errno " ++ toString errno.code ++ "] ")
  | unnumbered (message : String) : Wording (.unnumbered message) message

theorem wording_iff {refusal : Refusal} {reason : String} :
    Wording refusal reason ↔ reason = refusal.reason := by
  constructor
  · intro h
    cases h with
    | standard errno => rfl
    | own hmessage errno => exact (if_neg hmessage).symm
    | blank errno =>
      simp [Refusal.reason, Errno.numberedMessage]
    | unnumbered message => rfl
  · rintro rfl
    cases refusal with
    | unnumbered message => exact .unnumbered message
    | numbered errno message =>
      cases message with
      | none => exact .standard errno
      | some message =>
        by_cases hmessage : message = ""
        · subst hmessage
          simpa [Refusal.reason, Errno.numberedMessage] using Wording.blank errno
        · simpa [Refusal.reason, hmessage] using Wording.own hmessage errno

/-- The status that a command has when the start and the wait went so, and the
reason that is given if one is. -/
inductive Verdict : Start → Int → Option String → Prop
  | exited {code : Int} (h : 0 ≤ code) (interrupts : Nat) :
      Verdict (.running code interrupts) code none
  | killed {code signal : Int} (h : 1 ≤ signal) (hcode : code = -signal) (interrupts : Nat) :
      Verdict (.running code interrupts) (128 + signal) none
  | outOfMemory : Verdict .outOfMemory 1 (some "Cannot allocate memory")
  | noProcess {errno : Errno} {message : Option String} {reason : String}
      (herrno : errno ∈ [.eagain, .enomem])
      (hreason : Wording (.numbered errno message) reason) :
      Verdict (.refused (.numbered errno message)) 1 (some reason)
  | missing (message : Option String) :
      Verdict (.refused (.numbered .enoent message)) 127 (some "not found")
  | refused {refusal : Refusal} {reason : String}
      (herrno : ∀ errno ∈ refusal.errno?, errno ∉ [.eagain, .enomem] ∧ errno ≠ .enoent)
      (hreason : Wording refusal reason) : Verdict (.refused refusal) 126 (some reason)
  | embeddedNul : Verdict .embeddedNul 126 (some "embedded null byte")

/-- How a start went, without the interrupts that came during the wait. -/
def Start.uninterrupted : Start → Start
  | .running code _ => .running code 0
  | start => start

namespace Verdict

variable {start other : Start} {status value : Int} {reason text : Option String}

theorem uninterrupted (h : Verdict start status reason) :
    Verdict start.uninterrupted status reason := by
  cases h with
  | exited h _ => exact .exited h 0
  | killed h hcode _ => exact .killed h hcode 0
  | outOfMemory => exact .outOfMemory
  | noProcess herrno hreason => exact .noProcess herrno hreason
  | missing message => exact .missing message
  | refused herrno hreason => exact .refused herrno hreason
  | embeddedNul => exact .embeddedNul

theorem unique_of_same (h : Verdict start status reason) (h' : Verdict start value text) :
    status = value ∧ reason = text := by
  cases h with
  | exited hcode =>
    cases h' with
    | exited => exact ⟨rfl, rfl⟩
    | killed hsignal hother => omega
  | killed hsignal hcode =>
    cases h' with
    | exited hother => omega
    | killed hother hcode' => exact ⟨by omega, rfl⟩
  | outOfMemory =>
    cases h'
    exact ⟨rfl, rfl⟩
  | embeddedNul =>
    cases h'
    exact ⟨rfl, rfl⟩
  | missing message =>
    cases h' with
    | noProcess herrno => exact absurd herrno (by decide)
    | missing => exact ⟨rfl, rfl⟩
    | refused herrno => exact absurd rfl (herrno .enoent rfl).2
  | noProcess herrno hreason =>
    cases h' with
    | noProcess _ htext => exact ⟨rfl, by rw [wording_iff.mp hreason, wording_iff.mp htext]⟩
    | missing => exact absurd herrno (by decide)
    | refused hother => exact absurd herrno (hother _ rfl).1
  | refused herrno hreason =>
    cases h' with
    | noProcess hother => exact absurd hother (herrno _ rfl).1
    | missing => exact absurd rfl (herrno .enoent rfl).2
    | refused _ htext => exact ⟨rfl, by rw [wording_iff.mp hreason, wording_iff.mp htext]⟩

/-- A start and a wait have one verdict at most, whatever interrupts came. -/
theorem unique (h : Verdict start status reason) (h' : Verdict other value text)
    (hsame : start.uninterrupted = other.uninterrupted) : status = value ∧ reason = text :=
  h.uninterrupted.unique_of_same (hsame ▸ h'.uninterrupted)

end Verdict

/-! ## §2 Requests -/

/-- An error with the number of one that has a name is that one. -/
theorem Errno.code_eq_code_iff {errno other : Errno} (h : other ∈ Errno.named) :
    errno.code = other.code ↔ errno = other := by
  refine ⟨fun hcode => ?_, fun heq => by rw [heq]⟩
  have hnamed : ∀ other ∈ Errno.named, other.code ∈ Errno.namedCodes := by decide
  have hinjective : ∀ first ∈ Errno.named, ∀ second ∈ Errno.named,
      first.code = second.code → first = second := by decide
  cases errno with
  | other number wording hunnamed =>
    have hmem := hnamed other h
    rw [← hcode] at hmem
    exact absurd hmem hunnamed
  | _ => exact hinjective _ (by decide) other h hcode

theorem Errno.isSpawnError_iff {errno : Errno} :
    errno.isSpawnError = true ↔ errno ∈ [.eagain, .enomem] := by
  have hagain : errno.code = Errno.eagain.code ↔ errno = .eagain := code_eq_code_iff (by decide)
  have hmemory : errno.code = Errno.enomem.code ↔ errno = .enomem := code_eq_code_iff (by decide)
  simp [isSpawnError, hagain, hmemory]

namespace Shell

/-- The outcome is that of a command with this status, and with a report of this
reason if there is one. -/
structure Concluded (shell : Shell) (command : String) (status : Int) (reason : Option String)
    (outcome : Outcome) : Prop where
  ending : outcome.ending = .returned status
  output : outcome.transcript.output = ""
  errors : outcome.transcript.errors false =
    String.join (reason.toList.map fun reason =>
      shell.diagnosticLine { reason, status, command := some command })

variable {shell : Shell} {command : String}

theorem concluded_report (reason : String) (status : Int) :
    Concluded shell command status (some reason)
      (shell.report { reason, status, command := some command }) where
  ending := rfl
  output := rfl
  errors := by simp [errors_report]

theorem Concluded.after {status : Int} {reason : Option String} {outcome : Outcome}
    (h : Concluded shell command status reason outcome) {events : Transcript}
    (houtput : events.output = "") (herrors : events.errors false = "") :
    Concluded shell command status reason (outcome.after events) where
  ending := h.ending
  output := by rw [Outcome.after_transcript, Transcript.output_append, houtput, h.output]; rfl
  errors := by simp [herrors, h.errors]

/-- The status that a process ended with is that of a verdict, and so is what
the command makes of it. -/
def Decided (shell : Shell) (command : String) (start : Start) (ending : ChildEnding) : Prop :=
  ∃ reason, Verdict start ending.status reason ∧
    Concluded shell command ending.status reason (shell.concludeChild command ending)

theorem decided_running (shell : Shell) (command : String) (code : Int) (interrupts : Nat) :
    Decided shell command (.running code interrupts) (.ofCode code) := by
  by_cases hcode : code < 0
  · have hending : ChildEnding.ofCode code = .signalled (-code) := if_pos hcode
    rw [hending]
    exact ⟨none, .killed (by omega) (by omega) interrupts, rfl, rfl, rfl⟩
  · have hending : ChildEnding.ofCode code = .exited code := if_neg hcode
    rw [hending]
    exact ⟨none, .exited (Int.not_lt.mp hcode) interrupts, rfl, rfl, rfl⟩

theorem decided_embeddedNul (shell : Shell) (command : String) :
    Decided shell command .embeddedNul (.execFailed embeddedNulMessage none) :=
  ⟨_, .embeddedNul, concluded_report embeddedNulMessage 126⟩

theorem decided_outOfMemory (shell : Shell) (command : String) :
    Decided shell command .outOfMemory (.spawnFailed Errno.enomem.message (some .enomem)) :=
  ⟨_, .outOfMemory, concluded_report Errno.enomem.message 1⟩

theorem decided_noProcess (shell : Shell) (command : String) {errno : Errno}
    (h : errno ∈ [.eagain, .enomem]) (message : Option String) :
    Decided shell command (.refused (.numbered errno message))
      (.spawnFailed (Refusal.numbered errno message).reason (some errno)) :=
  ⟨_, .noProcess h (wording_iff.mpr rfl), concluded_report _ 1⟩

theorem decided_refused (shell : Shell) (command : String) {refusal : Refusal}
    (h : ∀ errno ∈ refusal.errno?, errno ∉ [.eagain, .enomem]) :
    Decided shell command (.refused refusal)
      (.execFailed refusal.reason refusal.errno?) := by
  -- The number is asked for twice, for the status and for the report, and both times alike.
  by_cases hmissing : refusal.errno? = some .enoent
  · cases refusal with
    | unnumbered message => cases hmissing
    | numbered errno message =>
      cases hmissing
      exact ⟨_, .missing message, concluded_report "not found" 127⟩
  · have hstatus : (ChildEnding.execFailed refusal.reason refusal.errno?).status = 126 :=
      if_neg hmissing
    have hconclude : shell.concludeChild command (.execFailed refusal.reason refusal.errno?) =
        shell.report { reason := refusal.reason, status := 126, command := some command } :=
      if_neg hmissing
    rw [Decided, hstatus, hconclude]
    refine ⟨_, .refused (fun errno herrno => ⟨h errno herrno, ?_⟩) (wording_iff.mpr rfl),
      concluded_report _ 126⟩
    rintro rfl
    exact hmissing herrno

/-- Any request in any world is decided, however its program is found. -/
theorem decided_launch (shell : Shell) (command : String) (world : World) (attempt : Attempt) :
    Decided shell command (attempt.start world) (launch world attempt).2 := by
  cases hstart : attempt.start world with
  | embeddedNul =>
    have hending : (launch world attempt).2 = .execFailed embeddedNulMessage none := by
      simp [launch, hstart]
    exact hending ▸ decided_embeddedNul shell command
  | outOfMemory =>
    have hending : (launch world attempt).2 =
        .spawnFailed Errno.enomem.message (some .enomem) := by
      simp [launch, hstart]
    exact hending ▸ decided_outOfMemory shell command
  | refused refusal =>
    by_cases hspawn : refusal.errno?.any Errno.isSpawnError = true
    · have hending : (launch world attempt).2 = .spawnFailed refusal.reason refusal.errno? := by
        simp [launch, hstart, hspawn]
      rw [hending]
      cases refusal with
      | unnumbered message => cases hspawn
      | numbered errno message =>
        exact decided_noProcess shell command (Errno.isSpawnError_iff.mp hspawn) message
    · have hending : (launch world attempt).2 = .execFailed refusal.reason refusal.errno? := by
        simp [launch, hstart, hspawn]
      rw [hending]
      refine decided_refused shell command fun errno herrno hmem => hspawn ?_
      rw [Option.mem_def.mp herrno]
      exact Errno.isSpawnError_iff.mpr hmem
  | running code interrupts =>
    have hending : (launch world attempt).2 = .ofCode code := by
      simp [launch, hstart, await_eq]
    exact hending ▸ decided_running shell command code interrupts

end Shell

/-! ## §3 Commands -/

theorem SearchPath.output_resolve (path : SearchPath) (env : Environment) (world : World)
    (command : String) : (path.resolve env world command).transcript.output = "" := by
  have hrefresh : (path.refresh env).2.output = "" := by
    unfold refresh
    dsimp only
    split
    · rfl
    · split <;> rfl
  unfold resolve
  split
  · rfl
  · split
    · rfl
    · dsimp only
      split <;> rw [Transcript.output_append, hrefresh] <;> rfl

theorem output_launch (world : World) (attempt : Attempt) :
    (launch world attempt).1.output = "" := by
  unfold launch
  dsimp only
  split
  · rfl
  · rfl
  · split <;> rfl
  · rfl

namespace Shell

variable {shell : Shell} {words operands : List String} {command : String} {attempt : Attempt}

/-- A command that makes a request does what follows from it. -/
theorem runPrepared_of_attempt? (h : shell.attempt? (command :: operands) = some attempt) :
    ∃ searchPath,
      shell.runPrepared (command :: operands) =
        ({ shell with searchPath }.concludeChild command (launch shell.world attempt).2).after
          ((shell.searchPath.resolve shell.environment shell.world command).transcript ++
            (launch shell.world attempt).1) := by
  rw [attempt?] at h
  split at h
  · cases h
  · next hlookup =>
    obtain ⟨location, hlocation, rfl⟩ := Option.map_eq_some_iff.mp h
    refine ⟨(shell.searchPath.resolve shell.environment shell.world command).searchPath, ?_⟩
    simp only [runPrepared, hlookup, runExternal, hlocation]

/-- A command concludes as it does once its words are prepared. -/
theorem Concluded.runCommand {status : Int} {reason : Option String}
    (h : Concluded shell command status reason (shell.runPrepared (shell.prepare words))) :
    Concluded shell command status reason (shell.runCommand words) where
  ending := by rw [ending_runCommand, h.ending]
  output := by rw [output_runCommand, h.output]
  errors := by
    rw [transcript_runCommand, Transcript.errors_cons, h.errors]
    exact String.empty_append

theorem concluded_runCommand (hprepared : shell.prepare words = command :: operands)
    (hattempt : shell.attempt? (command :: operands) = some attempt) :
    ∃ status reason, Verdict (attempt.start shell.world) status reason ∧
      Concluded shell command status reason (shell.runCommand words) := by
  obtain ⟨searchPath, hrun⟩ := runPrepared_of_attempt? hattempt
  obtain ⟨reason, hverdict, hconcluded⟩ :=
    decided_launch { shell with searchPath } command shell.world attempt
  have houtput : ((shell.searchPath.resolve shell.environment shell.world command).transcript ++
      (launch shell.world attempt).1).output = "" := by
    rw [Transcript.output_append, SearchPath.output_resolve, output_launch]
    rfl
  have herrors : ((shell.searchPath.resolve shell.environment shell.world command).transcript ++
      (launch shell.world attempt).1).errors false = "" := by
    rw [Transcript.errors_append, SearchPath.errors_resolve, errors_launch]
    rfl
  have hafter := hconcluded.after houtput herrors
  rw [← hrun, ← hprepared] at hafter
  -- What the search remembers is not seen in a report.
  exact ⟨_, reason, hverdict, .runCommand ⟨hafter.ending, hafter.output, hafter.errors⟩⟩

end Shell

/-- **The start and the wait decide the status and the report of a program.** Let
any request be made in any world, for whatever executable, words and variables:
what the process ended with and what the command makes of it have the one status
of the verdict on the start, and the report gives the reason of that verdict under
the name that the words begin with, whether or not this is the executable. The
same holds of a command that makes a request. A verdict is decided by the start
alone, and the interrupts that come during the wait have no part in it. -/
theorem start_decides_status (shell : Shell) (command : String) (operands : List String) :
    (∀ executable environment world,
      let attempt : Attempt := ⟨executable, command :: operands, environment⟩
      shell.Decided command (attempt.start world) (launch world attempt).2) ∧
    (∀ words attempt, shell.prepare words = command :: operands →
      shell.attempt? (command :: operands) = some attempt →
        ∃ status reason, Verdict (attempt.start shell.world) status reason ∧
          shell.Concluded command status reason (shell.runCommand words)) ∧
    (∀ start other : Start, start.uninterrupted = other.uninterrupted →
      ∀ status value reason text, Verdict start status reason → Verdict other value text →
        status = value ∧ reason = text) := by
  refine ⟨fun executable environment world => ?_, fun words attempt hprepared hattempt => ?_, ?_⟩
  · exact Shell.decided_launch shell command world ⟨executable, command :: operands, environment⟩
  · exact Shell.concluded_runCommand hprepared hattempt
  · exact fun start other hsame _ _ _ _ h h' => h.unique h' hsame

/-- A directory with a program that is ended by a signal after three interrupts,
and one that the system refuses without words. -/
def World.withRefused : World where
  root := .directory true
    [("bin", .directory true
      [("x", .file { executable := true, program := .runs (-9) 3 }),
        ("y", .file
          { executable := true, program := .refused (.numbered .etxtbsy (some "")) })])]

/-- The report has the name of the command and not the path of its program. -/
theorem start_decides_status_busy :
    let shell : Shell :=
      { programName := "minish", processId := 1, environment := .ofPairs [("PATH", "/bin")],
        world := .withRefused, builtins := Builtin.standard }
    let attempt : Attempt := ⟨"/bin/y", ["y", "1"], ["PATH=/bin"]⟩
    let outcome := shell.runCommand ["y", "1"]
    outcome.transcript.attempts = [attempt] ∧
      (∃ status reason, Verdict (attempt.start shell.world) status reason ∧
        shell.Concluded "y" status reason outcome) ∧
      outcome.ending = .returned 126 ∧
      outcome.transcript.errors false = "minish: 0: y: [Errno 26] \n" ∧
      (shell.runCommand ["x"]).ending = .returned 137 := by
  intro shell attempt outcome
  have hprepared : shell.prepare ["y", "1"] = ["y", "1"] := by decide +kernel
  have hattempt : shell.attempt? ["y", "1"] = some attempt := by decide +kernel
  obtain ⟨-, hcommands, -⟩ := start_decides_status shell "y" ["1"]
  exact ⟨by decide +kernel, hcommands ["y", "1"] attempt hprepared hattempt, by decide +kernel,
    by decide +kernel, by decide +kernel⟩

/-- An error that has no name here is reported in the words of the system. -/
example :
    let full : Errno := .other 28 "No space left on device" (by decide)
    let program : Node :=
      .file { executable := true, program := .refused (.numbered full none) }
    let shell : Shell :=
      { programName := "minish", processId := 1, environment := .ofPairs [],
        world := { root := .directory true [("z", program)] }, builtins := Builtin.standard }
    let outcome := shell.runCommand ["/z"]
    outcome.ending = .returned 126 ∧
      outcome.transcript.errors false = "minish: 0: /z: No space left on device\n" := by
  decide +kernel

end CommandShell
