/-
CommandShell.Proofs.Shell.Leaving — a shell is left by its exit and by nothing
else.

`IsExit` describes the words of a command that leaves the shell. §1 says it of
one command, whatever its builtin or program comes to
(`exists_left_runCommand_iff`): every failure on the way is reported and has a
status. §2 goes on to the commands of a line. What is carried along
(`LeftByExit`) is that the shell is left exactly if an exit was dispatched,
and that nothing is dispatched after one. §3 is about loops.

Two things are outside of what the shell reports on, and each is named where it
is supposed not to happen: the streams refuse a text (`Streams.TakesAll`), and
the reading of a line is interrupted. Without these `left_only_by_exit` fails
(`left_without_exit`).
-/
import CommandShell.CommandLine.Run
import CommandShell.Proofs.Builtin.Standard
import CommandShell.Proofs.Shell.Session

namespace CommandShell

/-- The words of a command that leaves the shell: no operand, or a first
operand that gives an exit status. -/
inductive IsExit : List String → Prop
  | bare : IsExit ["exit"]
  | status {operand : String} {status : Nat} (h : ExitStatus.read operand = .ok status)
      (more : List String) : IsExit ("exit" :: operand :: more)

theorem IsExit.exists_operands {words : List String} (h : IsExit words) :
    ∃ operands, words = "exit" :: operands := by
  cases h with
  | bare => exact ⟨_, rfl⟩
  | status _ more => exact ⟨_, rfl⟩

/-! ## §1 One command -/

theorem Builtin.exists_exit_eq_leave_iff (shell : Shell) (operands : List String) :
    (∃ status, Builtin.exit shell operands = .leave status) ↔ IsExit ("exit" :: operands) := by
  constructor
  · rintro ⟨status, h⟩
    cases operands with
    | nil => exact .bare
    | cons operand more =>
      cases hread : ExitStatus.read operand with
      | ok value => exact .status hread more
      | error refusal => cases refusal <;> simp [Builtin.exit, hread] at h
  · intro h
    cases h with
    | bare => exact ⟨_, rfl⟩
    | @status operand status hread more => exact ⟨status, by simp [Builtin.exit, hread]⟩

namespace Shell

variable {shell : Shell}

theorem left_runBuiltin_iff (entry : Registry.Entry Action) (name : String)
    (operands : List String) (status : Int) :
    (shell.runBuiltin entry name operands).ending = .left status ↔
      (entry.handler.perform shell name operands).2 = .leave status := by
  unfold runBuiltin
  dsimp only
  split <;> simp_all [report]

/-- Of all commands only an exit leaves the shell. -/
theorem exists_left_runPrepared_iff (h : shell.builtins = Builtin.standard)
    (words : List String) :
    (∃ status, (shell.runPrepared words).ending = .left status) ↔ IsExit words := by
  cases words with
  | nil =>
    constructor
    · rintro ⟨status, hleft⟩
      cases hleft
    · intro hexit
      obtain ⟨operands, heq⟩ := hexit.exists_operands
      cases heq
  | cons command operands =>
    rw [runPrepared, h]
    by_cases hcommand : command = "exit"
    · subst hcommand
      obtain ⟨entry, hlookup, hentry⟩ := Builtin.IsStandard.exit.exists_lookup
      simp only [hlookup, Outcome.after_ending, left_runBuiltin_iff, hentry]
      exact Builtin.exists_exit_eq_leave_iff shell operands
    · have hnot : ¬ IsExit (command :: operands) := by
        intro hexit
        obtain ⟨_, heq⟩ := hexit.exists_operands
        exact hcommand (List.cons_eq_cons.mp heq).1
      simp only [hnot, iff_false, not_exists]
      intro status
      cases hlookup : Builtin.standard.lookup command with
      | none =>
        obtain ⟨other, hreturned⟩ := returned_runExternal shell command operands
        simp [hreturned]
      | some entry =>
        simp only [Outcome.after_ending, left_runBuiltin_iff]
        by_cases halias : command = "alias"
        · subst halias
          simp [Builtin.perform_aliases (Builtin.IsStandard.aliases.handler_eq hlookup)]
        · have hplain := Builtin.plain_perform hlookup hcommand halias shell command operands
          intro hleave
          rw [hleave] at hplain
          cases hplain

theorem exists_left_runCommand_iff (h : shell.builtins = Builtin.standard)
    (words : List String) :
    (∃ status, (shell.runCommand words).ending = .left status) ↔
      IsExit (shell.prepare words) := by
  rw [ending_runCommand]
  exact exists_left_runPrepared_iff h (shell.prepare words)

end Shell

/-! ## §2 The commands of a line -/

/-- The shell is left exactly if an exit was dispatched, and nothing was
dispatched after one. -/
structure LeftByExit (outcome : Outcome) : Prop where
  left_iff : (∃ status, outcome.ending = .left status) ↔
    ∃ words ∈ outcome.transcript.dispatched, IsExit words
  last : ∀ earlier words later, outcome.transcript.dispatched = earlier ++ words :: later →
    IsExit words → later = []

theorem LeftByExit.of_none {outcome : Outcome} (hending : ∀ status, outcome.ending ≠ .left status)
    (hdispatched : outcome.transcript.dispatched = []) : LeftByExit outcome where
  left_iff := by simp [hending, hdispatched]
  last := by simp [hdispatched]

namespace Shell

/-- A command first and then whatever is left by exit only. -/
theorem leftByExit_andThen {shell : Shell} (h : shell.builtins = Builtin.standard)
    (words : List String) {next : Shell → Int → Outcome}
    (hnext : ∀ shell status, shell.builtins = Builtin.standard → LeftByExit (next shell status)) :
    LeftByExit ((shell.runCommand words).andThen next) := by
  have hiff := exists_left_runCommand_iff h words
  have hdispatched := dispatched_runCommand shell words
  rcases regular_runCommand shell words with ⟨status, hreturned⟩ | ⟨status, hleft⟩
  · have hnot : ¬ IsExit (shell.prepare words) := by
      rw [← hiff, hreturned]
      simp
    have hafter := hnext (shell.runCommand words).shell status
      ((frame_runCommand shell words).builtins.trans h)
    rw [Outcome.andThen_of_returned next hreturned]
    constructor
    · rw [Outcome.after_ending, Outcome.after_transcript, Transcript.dispatched_append,
        hdispatched, hafter.left_iff]
      simp [hnot]
    · intro earlier other later hsplit hexit
      rw [Outcome.after_transcript, Transcript.dispatched_append, hdispatched] at hsplit
      cases earlier with
      | nil =>
        obtain ⟨rfl, -⟩ := List.cons_eq_cons.mp hsplit
        exact absurd hexit hnot
      | cons first earlier =>
        exact hafter.last earlier other later (List.cons_eq_cons.mp hsplit).2 hexit
  · have hexit : IsExit (shell.prepare words) := hiff.mp ⟨status, hleft⟩
    rw [Outcome.andThen_of_not_returned next (by simp [hleft])]
    constructor
    · rw [hiff, hdispatched]
      simp
    · intro earlier other later hsplit _
      rw [hdispatched] at hsplit
      cases earlier with
      | nil => exact (List.cons_eq_cons.mp hsplit).2.symm
      | cons first earlier => simp at hsplit

theorem leftByExit_runCommands {shell : Shell} (h : shell.builtins = Builtin.standard)
    (status : Int) (commands : List Command) :
    LeftByExit (shell.runCommands status commands) := by
  revert h
  refine runCommands_induction
    (motive := fun shell outcome => shell.builtins = Builtin.standard → LeftByExit outcome)
    (fun _ _ _ => .of_none (by simp) rfl) ?_ shell status commands
  intro shell words next hnext h
  exact leftByExit_andThen h words hnext

theorem leftByExit_executeLine {shell : Shell} (h : shell.builtins = Builtin.standard)
    (line : String) : LeftByExit (shell.executeLine line) := by
  unfold executeLine
  dsimp only
  split
  · exact .of_none (by simp [rejectLine, report, Outcome.andThen_returned, Outcome.after]) rfl
  · refine leftByExit_runCommands ?_ _ _
    exact h

end Shell

/-! ## §3 Loops -/

theorem Outcome.Regular.exists_status {outcome : Outcome} (h : outcome.Regular) :
    ∃ status, outcome.status = .ok status := by
  rcases h with ⟨status, hending⟩ | ⟨status, hending⟩
  · exact ⟨status, by simp [Outcome.status, hending]⟩
  · exact ⟨status, by simp [Outcome.status, hending]⟩

namespace Shell

theorem regular_finish (shell : Shell) : shell.finish.Regular := .inl ⟨shell.lastStatus, rfl⟩

/-- Lines that return or leave the shell make a loop that has a status. -/
theorem exists_status_runLines (shell : Shell) (lines : List String) :
    ∃ status, (shell.runLines lines).status = .ok status := by
  have hregular : (shell.runLines lines).Regular := by
    induction lines generalizing shell with
    | nil => exact regular_finish shell
    | cons line rest ih =>
      rw [runLines]
      exact (regular_executeLine shell line).andThen fun shell _ => ih shell
  exact hregular.exists_status

theorem exists_status_runInput (shell : Shell) {reads : List Read} (h : .interrupt ∉ reads) :
    ∃ status, (shell.runInput reads).status = .ok status := by
  have hregular : (shell.runInput reads).Regular := by
    induction reads generalizing shell with
    | nil => exact (regular_finish shell).after [.read]
    | cons read rest ih =>
      have hrest : .interrupt ∉ rest := fun hmem => h (List.mem_cons_of_mem read hmem)
      cases read with
      | interrupt => exact absurd List.mem_cons_self h
      | line text =>
        rw [runInput]
        split
        · exact (regular_finish shell).after [.read]
        · exact ((regular_executeLine shell text).andThen fun shell _ => ih shell hrest).after _
  exact hregular.exists_status

end Shell

/-- **Nothing but an exit leaves the shell.** In every state of a session every
line returns a status or leaves the shell, as long as the streams take all that
it writes, and nothing else can happen to it. It leaves the shell exactly if
one of the commands dispatched is an exit, by its words as they are prepared,
and then no other command is dispatched after that one. With such streams a text
and a stream therefore always come to a status, and so does standard input as
long as its reading is not interrupted. -/
theorem left_only_by_exit {count : Nat} {shell : Shell} (h : Session count shell)
    (streams : Streams) (seen : Transcript) :
    (∀ line : String,
      let outcome := shell.executeLine line
      streams.TakesAll seen outcome.transcript →
        shell.deliverLine streams seen line = .whole outcome ∧
          ((∃ status, outcome.ending = .returned status) ∨
            ∃ status, outcome.ending = .left status) ∧
          ((∃ status, outcome.ending = .left status) ↔
            ∃ words ∈ outcome.transcript.dispatched, IsExit words) ∧
          ∀ earlier words later, outcome.transcript.dispatched = earlier ++ words :: later →
            IsExit words → later = []) ∧
    (∀ text : String,
      (streams.TakesAll seen (shell.runText text).transcript →
        ∃ outcome status, shell.deliverText streams seen text = .whole outcome ∧
          outcome.status = .ok status) ∧
      (streams.TakesAll seen (shell.runStream text).transcript →
        ∃ outcome status, shell.deliverStream streams seen text = .whole outcome ∧
          outcome.status = .ok status)) ∧
    ∀ reads : List Read, .interrupt ∉ reads →
      streams.TakesAll seen (shell.runInput reads).transcript →
        ∃ outcome status, shell.deliverInput streams seen reads = .whole outcome ∧
          outcome.status = .ok status := by
  have hlines : ∀ lines, streams.TakesAll seen (shell.runLines lines).transcript →
      ∃ outcome status, shell.deliverLines streams seen lines = .whole outcome ∧
        outcome.status = .ok status := by
    intro lines htakes
    obtain ⟨status, hstatus⟩ := Shell.exists_status_runLines shell lines
    exact ⟨_, status, (shell.delivered_deliverLines streams seen lines).eq_whole htakes, hstatus⟩
  refine ⟨fun line htakes => ?_, fun text => ⟨hlines _, hlines _⟩, fun reads hreads htakes => ?_⟩
  · have hleft := Shell.leftByExit_executeLine h.builtins line
    exact ⟨(shell.delivered_deliverLine streams seen line).eq_whole htakes,
      Shell.regular_executeLine shell line, hleft.left_iff, hleft.last⟩
  · obtain ⟨status, hstatus⟩ := Shell.exists_status_runInput shell hreads
    exact ⟨_, status, (shell.delivered_deliverInput streams seen reads).eq_whole htakes, hstatus⟩

/-- A working directory that is gone, a name that holds NUL, an exit that an
alias hides, and a command after it. -/
theorem left_only_by_exit_alias :
    let shell : Shell :=
      { programName := "minish", processId := 1, environment := .ofPairs [],
        world := World.remove
          { root := .directory true [("d", .emptyDirectory)], workingDirectory := .inTree ["d"] }
          "/d",
        builtins := Builtin.standard }
    let line := "alias bye='exit 300' ; cd . ; no\x00such || bye x && env"
    let outcome := shell.executeLine line
    let reads : List Read := [.line "exit x\n", .line "", .line "exit"]
    Session 0 shell ∧ shell.deliverLine .ascii [] line = .whole outcome ∧
      outcome.transcript.dispatched =
        [["alias", "bye='exit", "300'"], ["cd", "."], ["no\x00such"], ["exit", "300", "x"]] ∧
      (∃ status, outcome.ending = .left status) ∧
      (∃ outcome status, shell.deliverText .ascii [] "exit x\ncd ." = .whole outcome ∧
        outcome.status = .ok status) ∧
      .interrupt ∉ reads ∧
      ∃ outcome status, shell.deliverInput .ascii [] reads = .whole outcome ∧
        outcome.status = .ok status := by
  intro shell line outcome reads
  have hsession : Session 0 shell := .start "minish" 1 [] _
  have hdispatched : outcome.transcript.dispatched =
      [["alias", "bye='exit", "300'"], ["cd", "."], ["no\x00such"], ["exit", "300", "x"]] := by
    decide +kernel
  have hread : ExitStatus.read "300" = .ok 44 := by decide
  have hexit : IsExit ["exit", "300", "x"] := .status hread ["x"]
  have htakes : Streams.ascii.TakesAll [] outcome.transcript :=
    Streams.takesAll_of_refusal?_eq_none (by decide +kernel)
  have htext : Streams.ascii.TakesAll [] (shell.runText "exit x\ncd .").transcript :=
    Streams.takesAll_of_refusal?_eq_none (by decide +kernel)
  have hinput : Streams.ascii.TakesAll [] (shell.runInput reads).transcript :=
    Streams.takesAll_of_refusal?_eq_none (by decide +kernel)
  obtain ⟨hlines, htexts, hreads⟩ := left_only_by_exit hsession .ascii []
  obtain ⟨hwhole, -, hiff, -⟩ := hlines line htakes
  refine ⟨hsession, hwhole, hdispatched, hiff.mpr ⟨_, ?_, hexit⟩, (htexts _).1 htext,
    by decide, hreads reads (by decide) hinput⟩
  rw [hdispatched]
  simp

/-- What leaves the shell when neither is supposed. The output stream has no
bytes for the value of a variable, and the line that writes it comes to no
status. Reading is interrupted where no prompt asked for a line, and a command
text is asked for but none is given. No exit is dispatched in any of these. -/
theorem left_without_exit :
    let shell : Shell :=
      { programName := "minish", processId := 1, environment := .ofPairs [("A", "\u00e9")],
        world := {}, builtins := Builtin.standard }
    let delivery := shell.deliverLine .ascii [] "env"
    let interrupted := CommandLine.run { arguments := [], processId := 1, input := [.interrupt] }
    let textless := CommandLine.run { arguments := ["-c--"], processId := 1 }
    Session 0 shell ∧ (∀ outcome, delivery ≠ .whole outcome) ∧
      delivery.refusal? =
        some ([.dispatch ["env"], .log .dispatcher "builtin env []"], .output "A=\u00e9\n") ∧
      ¬ IsExit ["env"] ∧
      interrupted.status = .error .interrupted ∧ interrupted.transcript.dispatched = [] ∧
      textless.status = .error .voidCommand ∧ textless.transcript.dispatched = [] := by
  intro shell delivery interrupted textless
  have hrefusal : delivery.refusal? =
      some ([.dispatch ["env"], .log .dispatcher "builtin env []"], .output "A=\u00e9\n") := by
    decide +kernel
  refine ⟨.start "minish" 1 _ {}, fun outcome hwhole => ?_, hrefusal, fun hexit => ?_,
    by decide +kernel, by decide +kernel, by decide +kernel, by decide +kernel⟩
  · rw [hwhole] at hrefusal
    cases hrefusal
  · obtain ⟨operands, heq⟩ := hexit.exists_operands
    exact absurd (List.cons_eq_cons.mp heq).1 (by decide)

end CommandShell
