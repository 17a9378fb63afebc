/-
CommandShell.Proofs.Shell.Sequence — a semicolon between two lines does what
the end of the first one does.

`runCommands_append` cuts the run of a list of commands in two, and
`runCommands_resume` says that a semicolon before the first command is not
seen: the commands of both lines are run in order (`executeLine_sequence`). The
second part goes on with the status that the first returned, and a line of its
own would begin with the last status: the two are the same
(`lastStatus_runCommands`). What is left is that a line of its own has another
line number, and `CommandShell.Proofs.Shell.Renumbering` says what that comes
to (`renumbered_nextLine`).
-/
import CommandShell.Proofs.Shell.Renumbering
import CommandShell.Proofs.Shell.Session
import CommandShell.Proofs.Syntax.Sequence

namespace CommandShell

namespace Shell

theorem runCommands_append (commands more : List Command) (shell : Shell) (status : Int) :
    shell.runCommands status (commands ++ more) =
      (shell.runCommands status commands).andThen fun shell status =>
        shell.runCommands status more := by
  induction commands generalizing shell status with
  | nil => simp [runCommands, Outcome.andThen_returned, Outcome.after]
  | cons command rest ih =>
    rw [List.cons_append, runCommands, runCommands]
    split
    · exact ih shell status
    · rw [Outcome.andThen_assoc]
      simp only [ih]

/-- A first command is run whatever the status, behind a semicolon or not. -/
theorem runCommands_resume {commands : List Command} (h : Command.Listed commands)
    (shell : Shell) (status : Int) :
    shell.runCommands status (Command.resume commands) = shell.runCommands status commands := by
  cases commands with
  | nil => rfl
  | cons command rest =>
    have hfirst : command.connector = none := h.first command (by simp)
    simp [Command.resume, runCommands, skips, hfirst]

/-- The status that commands return is the last status, if they began with it. -/
theorem lastStatus_runCommands {shell : Shell} {status value : Int} {commands : List Command}
    (hstatus : shell.lastStatus = status)
    (h : (shell.runCommands status commands).ending = .returned value) :
    (shell.runCommands status commands).shell.lastStatus = value := by
  induction commands generalizing shell status with
  | nil =>
    obtain rfl : status = value := by simpa [runCommands] using h
    exact hstatus
  | cons command rest ih =>
    rw [runCommands] at h ⊢
    by_cases hskips : skips command.connector status = true
    · rw [if_pos hskips] at h ⊢
      exact ih hstatus h
    · rw [if_neg hskips] at h ⊢
      rcases regular_runCommand shell command.words with ⟨status', hreturned⟩ | ⟨status', hleft⟩
      · rw [Outcome.andThen_of_returned _ hreturned] at h ⊢
        exact ih (lastStatus_runCommand hreturned) h
      · rw [Outcome.andThen_of_not_returned _ (by simp [hleft]), hleft] at h
        cases h

/-- The commands of two lines with a semicolon between them are run in order,
all at the same line. -/
theorem executeLine_sequence (shell : Shell) {first second : String}
    {commands more : List Command} (hfirst : Command.ofLine first = .ok commands)
    (hsecond : Command.ofLine second = .ok more) (hne : Token.ofLine first ≠ [])
    (hcomment : Token.Commentless first)
    (hlast : (Token.ofLine first).getLast? ≠ some (.op .semicolon)) :
    shell.executeLine (first ++ " ; " ++ second) =
      (shell.executeLine first).andThen fun shell status => shell.runCommands status more := by
  have hlisted : Command.Listed more := (Command.ofTokens_eq_ok_iff.mp hsecond).1
  have hline := Command.ofLine_sequence hfirst hsecond hne hcomment hlast
  rw [executeLine_of_ok hline, executeLine_of_ok hfirst, runCommands_append]
  simp only [runCommands_resume hlisted]

/-- Behind a line that returned, commands run as they do on the next line, but
for the line number. -/
theorem renumbered_nextLine {shell : Shell} {first second : String}
    {commands more : List Command} (hfirst : Command.ofLine first = .ok commands)
    (hsecond : Command.ofLine second = .ok more) {status : Int}
    (h : (shell.executeLine first).ending = .returned status) :
    Outcome.Renumbered shell.programName (shell.lineNumber + 1) (shell.lineNumber + 2)
      ((shell.executeLine first).shell.runCommands status more)
      ((shell.executeLine first).shell.executeLine second) := by
  have hframe := frame_executeLine shell first
  have hstatus : (shell.executeLine first).shell.lastStatus = status := by
    rw [executeLine_of_ok hfirst] at h ⊢
    exact lastStatus_runCommands rfl h
  have hruns := renumbered_runCommands (shell.lineNumber + 2) more
    (shell.executeLine first).shell status
  rw [hframe.programName, hframe.lineNumber] at hruns
  have hnext : { (shell.executeLine first).shell with
      lineNumber := (shell.executeLine first).shell.lineNumber + 1 } =
        (shell.executeLine first).shell.atLine (shell.lineNumber + 2) := by
    rw [hframe.lineNumber]
    rfl
  rw [executeLine_of_ok hsecond, hnext, hstatus]
  exact hruns

end Shell

namespace Transcript

variable {program : String} {number other : Nat} {here there : Transcript}

theorem output_of_renumbered (h : List.Forall₂ (Event.Renumbered program number other) here there) :
    there.output = here.output := by
  have htexts : there.map Event.outputText = here.map Event.outputText := by
    induction h with
    | nil => rfl
    | cons hevent _ ih =>
      rw [List.map_cons, List.map_cons, ih]
      cases hevent <;> rfl
  rw [output, htexts, output]

theorem attempts_of_renumbered
    (h : List.Forall₂ (Event.Renumbered program number other) here there) :
    there.attempts = here.attempts := by
  induction h with
  | nil => rfl
  | cons hevent _ ih => cases hevent <;> simp_all [attempts, List.filterMap_cons, Event.attempt?]

end Transcript

/-- **A semicolon between two lines does what the end of the first one does.**
Let two lines be read, of which the first writes a command, no word of it
starts a comment, and it does not end in a semicolon itself. Then the two on
one line and the two one after the other end alike, in the same state but for
the line number, with the same output and the same programs started. All that
is seen of the second line is the same too, but for the line number that its
reports show. -/
theorem semicolon_ends_line (shell : Shell) {first second : String}
    (hfirst : ∃ commands, Command.ofLine first = .ok commands)
    (hsecond : ∃ commands, Command.ofLine second = .ok commands)
    (hne : Token.ofLine first ≠ []) (hcomment : Token.Commentless first)
    (hlast : (Token.ofLine first).getLast? ≠ some (.op .semicolon)) :
    let before := shell.executeLine first
    let apart := before.andThen fun shell _ => shell.executeLine second
    let joined := shell.executeLine (first ++ " ; " ++ second)
    apart.ending = joined.ending ∧
      apart.shell = { joined.shell with lineNumber := apart.shell.lineNumber } ∧
      apart.transcript.output = joined.transcript.output ∧
      apart.transcript.attempts = joined.transcript.attempts ∧
      ∃ here there, joined.transcript = before.transcript ++ here ∧
        apart.transcript = before.transcript ++ there ∧
        List.Forall₂
          (Event.Renumbered shell.programName (shell.lineNumber + 1) (shell.lineNumber + 2))
          here there := by
  intro before apart joined
  obtain ⟨commands, hcommands⟩ := hfirst
  obtain ⟨more, hmore⟩ := hsecond
  have hjoined : joined = before.andThen fun shell status => shell.runCommands status more :=
    shell.executeLine_sequence hcommands hmore hne hcomment hlast
  by_cases hreturned : ∃ status, before.ending = .returned status
  · obtain ⟨status, hstatus⟩ := hreturned
    have hruns := Shell.renumbered_nextLine hcommands hmore hstatus
    have hwhole := List.rel_append (Transcript.renumbered_self _ _ _ before.transcript)
      hruns.transcript
    have hapart : apart = _ := Outcome.andThen_of_returned _ hstatus
    rw [hjoined, Outcome.andThen_of_returned _ hstatus, hapart]
    refine ⟨hruns.ending, ?_, Transcript.output_of_renumbered hwhole,
      Transcript.attempts_of_renumbered hwhole, _, _, rfl, rfl, hruns.transcript⟩
    simp only [before, Outcome.after_shell, hruns.shell]
    rfl
  · have hstopped : ∀ status, before.ending ≠ .returned status := by simpa using hreturned
    have hapart : apart = before := Outcome.andThen_of_not_returned _ hstopped
    rw [hjoined, Outcome.andThen_of_not_returned _ hstopped, hapart]
    exact ⟨rfl, rfl, rfl, rfl, [], [], by simp, by simp, .nil⟩

/-- The second line uses an alias and a variable of the first, and reports what
it does not find, before it leaves the shell. -/
theorem semicolon_ends_line_exit :
    let shell : Shell :=
      { programName := "minish", processId := 1, environment := .ofPairs [],
        world := { root := .directory true [("d", .emptyDirectory)] },
        builtins := Builtin.standard }
    let first := "alias go='cd /d' && setenv V 7"
    let second := "alias $V || go ; nosuch $? ; exit $V"
    let apart := (shell.executeLine first).andThen fun shell _ => shell.executeLine second
    let joined := shell.executeLine (first ++ " ; " ++ second)
    apart.ending = joined.ending ∧ joined.ending = .left 7 ∧
      apart.transcript.attempts = joined.transcript.attempts ∧
      apart.shell.environment.get? "PWD" = some "/d" ∧
      joined.transcript.errors false =
        "minish: 1: alias: 7 not found\nminish: 1: nosuch: not found\n" ∧
      apart.transcript.errors false =
        "minish: 2: alias: 7 not found\nminish: 2: nosuch: not found\n" := by
  intro shell first second apart joined
  have hfirst : Command.ofLine first =
      .ok [⟨none, ["alias", "go='cd", "/d'"]⟩, ⟨some .and, ["setenv", "V", "7"]⟩] := by
    decide +kernel
  have hsecond : Command.ofLine second =
      .ok [⟨none, ["alias", "$V"]⟩, ⟨some .or, ["go"]⟩, ⟨some .semicolon, ["nosuch", "$?"]⟩,
        ⟨some .semicolon, ["exit", "$V"]⟩] := by
    decide +kernel
  obtain ⟨hending, -, -, hattempts, -⟩ := semicolon_ends_line shell ⟨_, hfirst⟩ ⟨_, hsecond⟩
    (by decide +kernel) (by decide +kernel) (by decide +kernel)
  refine ⟨hending, ?_, hattempts, ?_, ?_, ?_⟩
  all_goals decide +kernel

end CommandShell
